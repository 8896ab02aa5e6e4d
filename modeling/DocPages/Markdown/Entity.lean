import DocPages.Text.Ranges
import DocPages.Text.Search

/-!
The named character references of markup: for each first letter the names that start with it, each
name without that letter, an equals sign, and the code points that it stands for.
-/

namespace DocPages.Markdown

/-- The names and code points of the references, by their first letter. -/
def entityNames : List (Char × List String) :=
  [
    ('A', ["Elig=C6 MP=26 acute=C1 breve=102 circ=C2 cy=410 fr=1D504 grave=C0 lpha=391 macr=100",
      "nd=2A53 ogon=104 opf=1D538 pplyFunction=2061 ring=C5 scr=1D49C ssign=2254 tilde=C3",
      "uml=C4"]),
    ('B', ["ackslash=2216 arv=2AE7 arwed=2306 cy=411 ecause=2235 ernoullis=212C eta=392 fr=1D505",
      "opf=1D539 reve=2D8 scr=212C umpeq=224E"]),
    ('C', ["Hcy=427 OPY=A9 acute=106 ap=22D2 apitalDifferentialD=2145 ayleys=212D caron=10C",
      "cedil=C7 circ=108 conint=2230 dot=10A edilla=B8 enterDot=B7 fr=212D hi=3A7",
      "ircleDot=2299 ircleMinus=2296 irclePlus=2295 ircleTimes=2297",
      "lockwiseContourIntegral=2232 loseCurlyDoubleQuote=201D loseCurlyQuote=2019 olon=2237",
      "olone=2A74 ongruent=2261 onint=222F ontourIntegral=222E opf=2102 oproduct=2210",
      "ounterClockwiseContourIntegral=2233 ross=2A2F scr=1D49E up=22D3 upCap=224D"]),
    ('D', ["D=2145 Dotrahd=2911 Jcy=402 Scy=405 Zcy=40F agger=2021 arr=21A1 ashv=2AE4 caron=10E",
      "cy=414 el=2207 elta=394 fr=1D507 iacriticalAcute=B4 iacriticalDot=2D9",
      "iacriticalDoubleAcute=2DD iacriticalGrave=60 iacriticalTilde=2DC iamond=22C4",
      "ifferentialD=2146 opf=1D53B ot=A8 otDot=20DC otEqual=2250 oubleContourIntegral=222F",
      "oubleDot=A8 oubleDownArrow=21D3 oubleLeftArrow=21D0 oubleLeftRightArrow=21D4",
      "oubleLeftTee=2AE4 oubleLongLeftArrow=27F8 oubleLongLeftRightArrow=27FA",
      "oubleLongRightArrow=27F9 oubleRightArrow=21D2 oubleRightTee=22A8 oubleUpArrow=21D1",
      "oubleUpDownArrow=21D5 oubleVerticalBar=2225 ownArrow=2193 ownArrowBar=2913",
      "ownArrowUpArrow=21F5 ownBreve=311 ownLeftRightVector=2950 ownLeftTeeVector=295E",
      "ownLeftVector=21BD ownLeftVectorBar=2956 ownRightTeeVector=295F ownRightVector=21C1",
      "ownRightVectorBar=2957 ownTee=22A4 ownTeeArrow=21A7 ownarrow=21D3 scr=1D49F strok=110"]),
    ('E', ["NG=14A TH=D0 acute=C9 caron=11A circ=CA cy=42D dot=116 fr=1D508 grave=C8 lement=2208",
      "macr=112 mptySmallSquare=25FB mptyVerySmallSquare=25AB ogon=118 opf=1D53C psilon=395",
      "qual=2A75 qualTilde=2242 quilibrium=21CC scr=2130 sim=2A73 ta=397 uml=CB xists=2203",
      "xponentialE=2147"]),
    ('F', ["cy=424 fr=1D509 illedSmallSquare=25FC illedVerySmallSquare=25AA opf=1D53D orAll=2200",
      "ouriertrf=2131 scr=2131"]),
    ('G', ["Jcy=403 T=3E amma=393 ammad=3DC breve=11E cedil=122 circ=11C cy=413 dot=120 fr=1D50A",
      "g=22D9 opf=1D53E reaterEqual=2265 reaterEqualLess=22DB reaterFullEqual=2267",
      "reaterGreater=2AA2 reaterLess=2277 reaterSlantEqual=2A7E reaterTilde=2273 scr=1D4A2",
      "t=226B"]),
    ('H', ["ARDcy=42A acek=2C7 at=5E circ=124 fr=210C ilbertSpace=210B opf=210D orizontalLine=2500",
      "scr=210B strok=126 umpDownHump=224E umpEqual=224F"]),
    ('I', ["Ecy=415 Jlig=132 Ocy=401 acute=CD circ=CE cy=418 dot=130 fr=2111 grave=CC m=2111",
      "macr=12A maginaryI=2148 mplies=21D2 nt=222C ntegral=222B ntersection=22C2",
      "nvisibleComma=2063 nvisibleTimes=2062 ogon=12E opf=1D540 ota=399 scr=2110 tilde=128",
      "ukcy=406 uml=CF"]),
    ('J', ["circ=134 cy=419 fr=1D50D opf=1D541 scr=1D4A5 sercy=408 ukcy=404"]),
    ('K', ["Hcy=425 Jcy=40C appa=39A cedil=136 cy=41A fr=1D50E opf=1D542 scr=1D4A6"]),
    ('L', ["Jcy=409 T=3C acute=139 ambda=39B ang=27EA aplacetrf=2112 arr=219E caron=13D cedil=13B",
      "cy=41B eftAngleBracket=27E8 eftArrow=2190 eftArrowBar=21E4 eftArrowRightArrow=21C6",
      "eftCeiling=2308 eftDoubleBracket=27E6 eftDownTeeVector=2961 eftDownVector=21C3",
      "eftDownVectorBar=2959 eftFloor=230A eftRightArrow=2194 eftRightVector=294E eftTee=22A3",
      "eftTeeArrow=21A4 eftTeeVector=295A eftTriangle=22B2 eftTriangleBar=29CF",
      "eftTriangleEqual=22B4 eftUpDownVector=2951 eftUpTeeVector=2960 eftUpVector=21BF",
      "eftUpVectorBar=2958 eftVector=21BC eftVectorBar=2952 eftarrow=21D0 eftrightarrow=21D4",
      "essEqualGreater=22DA essFullEqual=2266 essGreater=2276 essLess=2AA1 essSlantEqual=2A7D",
      "essTilde=2272 fr=1D50F l=22D8 leftarrow=21DA midot=13F ongLeftArrow=27F5",
      "ongLeftRightArrow=27F7 ongRightArrow=27F6 ongleftarrow=27F8 ongleftrightarrow=27FA",
      "ongrightarrow=27F9 opf=1D543 owerLeftArrow=2199 owerRightArrow=2198 scr=2112 sh=21B0",
      "strok=141 t=226A"]),
    ('M', ["ap=2905 cy=41C ediumSpace=205F ellintrf=2133 fr=1D510 inusPlus=2213 opf=1D544 scr=2133",
      "u=39C"]),
    ('N', ["Jcy=40A acute=143 caron=147 cedil=145 cy=41D egativeMediumSpace=200B",
      "egativeThickSpace=200B egativeThinSpace=200B egativeVeryThinSpace=200B",
      "estedGreaterGreater=226B estedLessLess=226A ewLine=A fr=1D511 oBreak=2060",
      "onBreakingSpace=A0 opf=2115 ot=2AEC otCongruent=2262 otCupCap=226D",
      "otDoubleVerticalBar=2226 otElement=2209 otEqual=2260 otEqualTilde=2242+338",
      "otExists=2204 otGreater=226F otGreaterEqual=2271 otGreaterFullEqual=2267+338",
      "otGreaterGreater=226B+338 otGreaterLess=2279 otGreaterSlantEqual=2A7E+338",
      "otGreaterTilde=2275 otHumpDownHump=224E+338 otHumpEqual=224F+338 otLeftTriangle=22EA",
      "otLeftTriangleBar=29CF+338 otLeftTriangleEqual=22EC otLess=226E otLessEqual=2270",
      "otLessGreater=2278 otLessLess=226A+338 otLessSlantEqual=2A7D+338 otLessTilde=2274",
      "otNestedGreaterGreater=2AA2+338 otNestedLessLess=2AA1+338 otPrecedes=2280",
      "otPrecedesEqual=2AAF+338 otPrecedesSlantEqual=22E0 otReverseElement=220C",
      "otRightTriangle=22EB otRightTriangleBar=29D0+338 otRightTriangleEqual=22ED",
      "otSquareSubset=228F+338 otSquareSubsetEqual=22E2 otSquareSuperset=2290+338",
      "otSquareSupersetEqual=22E3 otSubset=2282+20D2 otSubsetEqual=2288 otSucceeds=2281",
      "otSucceedsEqual=2AB0+338 otSucceedsSlantEqual=22E1 otSucceedsTilde=227F+338",
      "otSuperset=2283+20D2 otSupersetEqual=2289 otTilde=2241 otTildeEqual=2244",
      "otTildeFullEqual=2247 otTildeTilde=2249 otVerticalBar=2224 scr=1D4A9 tilde=D1 u=39D"]),
    ('O', ["Elig=152 acute=D3 circ=D4 cy=41E dblac=150 fr=1D512 grave=D2 macr=14C mega=3A9",
      "micron=39F opf=1D546 penCurlyDoubleQuote=201C penCurlyQuote=2018 r=2A54 scr=1D4AA",
      "slash=D8 tilde=D5 times=2A37 uml=D6 verBar=203E verBrace=23DE verBracket=23B4",
      "verParenthesis=23DC"]),
    ('P', ["artialD=2202 cy=41F fr=1D513 hi=3A6 i=3A0 lusMinus=B1 oincareplane=210C opf=2119",
      "r=2ABB recedes=227A recedesEqual=2AAF recedesSlantEqual=227C recedesTilde=227E",
      "rime=2033 roduct=220F roportion=2237 roportional=221D scr=1D4AB si=3A8"]),
    ('Q', ["UOT=22 fr=1D514 opf=211A scr=1D4AC"]),
    ('R', ["Barr=2910 EG=AE acute=154 ang=27EB arr=21A0 arrtl=2916 caron=158 cedil=156 cy=420",
      "e=211C everseElement=220B everseEquilibrium=21CB everseUpEquilibrium=296F fr=211C",
      "ho=3A1 ightAngleBracket=27E9 ightArrow=2192 ightArrowBar=21E5 ightArrowLeftArrow=21C4",
      "ightCeiling=2309 ightDoubleBracket=27E7 ightDownTeeVector=295D ightDownVector=21C2",
      "ightDownVectorBar=2955 ightFloor=230B ightTee=22A2 ightTeeArrow=21A6",
      "ightTeeVector=295B ightTriangle=22B3 ightTriangleBar=29D0 ightTriangleEqual=22B5",
      "ightUpDownVector=294F ightUpTeeVector=295C ightUpVector=21BE ightUpVectorBar=2954",
      "ightVector=21C0 ightVectorBar=2953 ightarrow=21D2 opf=211D oundImplies=2970",
      "rightarrow=21DB scr=211B sh=21B1 uleDelayed=29F4"]),
    ('S', ["HCHcy=429 Hcy=428 OFTcy=42C acute=15A c=2ABC caron=160 cedil=15E circ=15C cy=421",
      "fr=1D516 hortDownArrow=2193 hortLeftArrow=2190 hortRightArrow=2192 hortUpArrow=2191",
      "igma=3A3 mallCircle=2218 opf=1D54A qrt=221A quare=25A1 quareIntersection=2293",
      "quareSubset=228F quareSubsetEqual=2291 quareSuperset=2290 quareSupersetEqual=2292",
      "quareUnion=2294 scr=1D4AE tar=22C6 ub=22D0 ubset=22D0 ubsetEqual=2286 ucceeds=227B",
      "ucceedsEqual=2AB0 ucceedsSlantEqual=227D ucceedsTilde=227F uchThat=220B um=2211",
      "up=22D1 uperset=2283 upersetEqual=2287 upset=22D1"]),
    ('T', ["HORN=DE RADE=2122 SHcy=40B Scy=426 ab=9 au=3A4 caron=164 cedil=162 cy=422 fr=1D517",
      "herefore=2234 heta=398 hickSpace=205F+200A hinSpace=2009 ilde=223C ildeEqual=2243",
      "ildeFullEqual=2245 ildeTilde=2248 opf=1D54B ripleDot=20DB scr=1D4AF strok=166"]),
    ('U', ["acute=DA arr=219F arrocir=2949 brcy=40E breve=16C circ=DB cy=423 dblac=170 fr=1D518",
      "grave=D9 macr=16A nderBar=5F nderBrace=23DF nderBracket=23B5 nderParenthesis=23DD",
      "nion=22C3 nionPlus=228E ogon=172 opf=1D54C pArrow=2191 pArrowBar=2912",
      "pArrowDownArrow=21C5 pDownArrow=2195 pEquilibrium=296E pTee=22A5 pTeeArrow=21A5",
      "parrow=21D1 pdownarrow=21D5 pperLeftArrow=2196 pperRightArrow=2197 psi=3D2 psilon=3A5",
      "ring=16E scr=1D4B0 tilde=168 uml=DC"]),
    ('V', ["Dash=22AB bar=2AEB cy=412 dash=22A9 dashl=2AE6 ee=22C1 erbar=2016 ert=2016",
      "erticalBar=2223 erticalLine=7C erticalSeparator=2758 erticalTilde=2240",
      "eryThinSpace=200A fr=1D519 opf=1D54D scr=1D4B1 vdash=22AA"]),
    ('W', ["circ=174 edge=22C0 fr=1D51A opf=1D54E scr=1D4B2"]),
    ('X', ["fr=1D51B i=39E opf=1D54F scr=1D4B3"]),
    ('Y', ["Acy=42F Icy=407 Ucy=42E acute=DD circ=176 cy=42B fr=1D51C opf=1D550 scr=1D4B4",
      "uml=178"]),
    ('Z', ["Hcy=416 acute=179 caron=17D cy=417 dot=17B eroWidthSpace=200B eta=396 fr=2128 opf=2124",
      "scr=1D4B5"]),
    ('a', ["acute=E1 breve=103 c=223E cE=223E+333 cd=223F circ=E2 cute=B4 cy=430 elig=E6 f=2061",
      "fr=1D51E grave=E0 lefsym=2135 leph=2135 lpha=3B1 macr=101 malg=2A3F mp=26 nd=2227",
      "ndand=2A55 ndd=2A5C ndslope=2A58 ndv=2A5A ng=2220 nge=29A4 ngle=2220 ngmsd=2221",
      "ngmsdaa=29A8 ngmsdab=29A9 ngmsdac=29AA ngmsdad=29AB ngmsdae=29AC ngmsdaf=29AD",
      "ngmsdag=29AE ngmsdah=29AF ngrt=221F ngrtvb=22BE ngrtvbd=299D ngsph=2222 ngst=C5",
      "ngzarr=237C ogon=105 opf=1D552 p=2248 pE=2A70 pacir=2A6F pe=224A pid=224B pos=27",
      "pprox=2248 pproxeq=224A ring=E5 scr=1D4B6 st=2A symp=2248 sympeq=224D tilde=E3 uml=E4",
      "wconint=2233 wint=2A11"]),
    ('b', ["Not=2AED ackcong=224C ackepsilon=3F6 ackprime=2035 acksim=223D acksimeq=22CD",
      "arvee=22BD arwed=2305 arwedge=2305 brk=23B5 brktbrk=23B6 cong=224C cy=431 dquo=201E",
      "ecaus=2235 ecause=2235 emptyv=29B0 epsi=3F6 ernou=212C eta=3B2 eth=2136 etween=226C",
      "fr=1D51F igcap=22C2 igcirc=25EF igcup=22C3 igodot=2A00 igoplus=2A01 igotimes=2A02",
      "igsqcup=2A06 igstar=2605 igtriangledown=25BD igtriangleup=25B3 iguplus=2A04 igvee=22C1",
      "igwedge=22C0 karow=290D lacklozenge=29EB lacksquare=25AA lacktriangle=25B4",
      "lacktriangledown=25BE lacktriangleleft=25C2 lacktriangleright=25B8 lank=2423 lk12=2592",
      "lk14=2591 lk34=2593 lock=2588 ne=3D+20E5 nequiv=2261+20E5 not=2310 opf=1D553 ot=22A5",
      "ottom=22A5 owtie=22C8 oxDL=2557 oxDR=2554 oxDl=2556 oxDr=2553 oxH=2550 oxHD=2566",
      "oxHU=2569 oxHd=2564 oxHu=2567 oxUL=255D oxUR=255A oxUl=255C oxUr=2559 oxV=2551",
      "oxVH=256C oxVL=2563 oxVR=2560 oxVh=256B oxVl=2562 oxVr=255F oxbox=29C9 oxdL=2555",
      "oxdR=2552 oxdl=2510 oxdr=250C oxh=2500 oxhD=2565 oxhU=2568 oxhd=252C oxhu=2534",
      "oxminus=229F oxplus=229E oxtimes=22A0 oxuL=255B oxuR=2558 oxul=2518 oxur=2514 oxv=2502",
      "oxvH=256A oxvL=2561 oxvR=255E oxvh=253C oxvl=2524 oxvr=251C prime=2035 reve=2D8",
      "rvbar=A6 scr=1D4B7 semi=204F sim=223D sime=22CD sol=5C solb=29C5 solhsub=27C8 ull=2022",
      "ullet=2022 ump=224E umpE=2AAE umpe=224F umpeq=224F"]),
    ('c', ["acute=107 ap=2229 apand=2A44 apbrcup=2A49 apcap=2A4B apcup=2A47 apdot=2A40",
      "aps=2229+FE00 aret=2041 aron=2C7 caps=2A4D caron=10D cedil=E7 circ=109 cups=2A4C",
      "cupssm=2A50 dot=10B edil=B8 emptyv=29B2 ent=A2 enterdot=B7 fr=1D520 hcy=447 heck=2713",
      "heckmark=2713 hi=3C7 ir=25CB irE=29C3 irc=2C6 irceq=2257 irclearrowleft=21BA",
      "irclearrowright=21BB ircledR=AE ircledS=24C8 ircledast=229B ircledcirc=229A",
      "ircleddash=229D ire=2257 irfnint=2A10 irmid=2AEF irscir=29C2 lubs=2663 lubsuit=2663",
      "olon=3A olone=2254 oloneq=2254 omma=2C ommat=40 omp=2201 ompfn=2218 omplement=2201",
      "omplexes=2102 ong=2245 ongdot=2A6D onint=222E opf=1D554 oprod=2210 opy=A9 opysr=2117",
      "rarr=21B5 ross=2717 scr=1D4B8 sub=2ACF sube=2AD1 sup=2AD0 supe=2AD2 tdot=22EF",
      "udarrl=2938 udarrr=2935 uepr=22DE uesc=22DF ularr=21B6 ularrp=293D up=222A",
      "upbrcap=2A48 upcap=2A46 upcup=2A4A updot=228D upor=2A45 ups=222A+FE00 urarr=21B7",
      "urarrm=293C urlyeqprec=22DE urlyeqsucc=22DF urlyvee=22CE urlywedge=22CF urren=A4",
      "urvearrowleft=21B6 urvearrowright=21B7 uvee=22CE uwed=22CF wconint=2232 wint=2231",
      "ylcty=232D"]),
    ('d', ["Arr=21D3 Har=2965 agger=2020 aleth=2138 arr=2193 ash=2010 ashv=22A3 bkarow=290F",
      "blac=2DD caron=10F cy=434 d=2146 dagger=2021 darr=21CA dotseq=2A77 eg=B0 elta=3B4",
      "emptyv=29B1 fisht=297F fr=1D521 harl=21C3 harr=21C2 iam=22C4 iamond=22C4",
      "iamondsuit=2666 iams=2666 ie=A8 igamma=3DD isin=22F2 iv=F7 ivide=F7 ivideontimes=22C7",
      "ivonx=22C7 jcy=452 lcorn=231E lcrop=230D ollar=24 opf=1D555 ot=2D9 oteq=2250",
      "oteqdot=2251 otminus=2238 otplus=2214 otsquare=22A1 oublebarwedge=2306 ownarrow=2193",
      "owndownarrows=21CA ownharpoonleft=21C3 ownharpoonright=21C2 rbkarow=2910 rcorn=231F",
      "rcrop=230C scr=1D4B9 scy=455 sol=29F6 strok=111 tdot=22F1 tri=25BF trif=25BE uarr=21F5",
      "uhar=296F wangle=29A6 zcy=45F zigrarr=27FF"]),
    ('e', ["DDot=2A77 Dot=2251 acute=E9 aster=2A6E caron=11B cir=2256 circ=EA colon=2255 cy=44D",
      "dot=117 e=2147 fDot=2252 fr=1D522 g=2A9A grave=E8 gs=2A96 gsdot=2A98 l=2A99",
      "linters=23E7 ll=2113 ls=2A95 lsdot=2A97 macr=113 mpty=2205 mptyset=2205 mptyv=2205",
      "msp=2003 msp13=2004 msp14=2005 ng=14B nsp=2002 ogon=119 opf=1D556 par=22D5 parsl=29E3",
      "plus=2A71 psi=3B5 psilon=3B5 psiv=3F5 qcirc=2256 qcolon=2255 qsim=2242 qslantgtr=2A96",
      "qslantless=2A95 quals=3D quest=225F quiv=2261 quivDD=2A78 qvparsl=29E5 rDot=2253",
      "rarr=2971 scr=212F sdot=2250 sim=2242 ta=3B7 th=F0 uml=EB uro=20AC xcl=21 xist=2203",
      "xpectation=2130 xponentiale=2147"]),
    ('f', ["allingdotseq=2252 cy=444 emale=2640 filig=FB03 flig=FB00 fllig=FB04 fr=1D523 ilig=FB01",
      "jlig=66+6A lat=266D llig=FB02 ltns=25B1 nof=192 opf=1D557 orall=2200 ork=22D4",
      "orkv=2AD9 partint=2A0D rac12=BD rac13=2153 rac14=BC rac15=2155 rac16=2159 rac18=215B",
      "rac23=2154 rac25=2156 rac34=BE rac35=2157 rac38=215C rac45=2158 rac56=215A rac58=215D",
      "rac78=215E rasl=2044 rown=2322 scr=1D4BB"]),
    ('g', ["E=2267 El=2A8C acute=1F5 amma=3B3 ammad=3DD ap=2A86 breve=11F circ=11D cy=433 dot=121",
      "e=2265 el=22DB eq=2265 eqq=2267 eqslant=2A7E es=2A7E escc=2AA9 esdot=2A80 esdoto=2A82",
      "esdotol=2A84 esl=22DB+FE00 esles=2A94 fr=1D524 g=226B gg=22D9 imel=2137 jcy=453 l=2277",
      "lE=2A92 la=2AA5 lj=2AA4 nE=2269 nap=2A8A napprox=2A8A ne=2A88 neq=2A88 neqq=2269",
      "nsim=22E7 opf=1D558 rave=60 scr=210A sim=2273 sime=2A8E siml=2A90 t=3E tcc=2AA7",
      "tcir=2A7A tdot=22D7 tlPar=2995 tquest=2A7C trapprox=2A86 trarr=2978 trdot=22D7",
      "treqless=22DB treqqless=2A8C trless=2277 trsim=2273 vertneqq=2269+FE00 vnE=2269+FE00"]),
    ('h', ["Arr=21D4 airsp=200A alf=BD amilt=210B ardcy=44A arr=2194 arrcir=2948 arrw=21AD",
      "bar=210F circ=125 earts=2665 eartsuit=2665 ellip=2026 ercon=22B9 fr=1D525 ksearow=2925",
      "kswarow=2926 oarr=21FF omtht=223B ookleftarrow=21A9 ookrightarrow=21AA opf=1D559",
      "orbar=2015 scr=1D4BD slash=210F strok=127 ybull=2043 yphen=2010"]),
    ('i', ["acute=ED c=2063 circ=EE cy=438 ecy=435 excl=A1 ff=21D4 fr=1D526 grave=EC i=2148",
      "iiint=2A0C iint=222D infin=29DC iota=2129 jlig=133 macr=12B mage=2111 magline=2110",
      "magpart=2111 math=131 mof=22B7 mped=1B5 n=2208 ncare=2105 nfin=221E nfintie=29DD",
      "nodot=131 nt=222B ntcal=22BA ntegers=2124 ntercal=22BA ntlarhk=2A17 ntprod=2A3C",
      "ocy=451 ogon=12F opf=1D55A ota=3B9 prod=2A3C quest=BF scr=1D4BE sin=2208 sinE=22F9",
      "sindot=22F5 sins=22F4 sinsv=22F3 sinv=2208 t=2062 tilde=129 ukcy=456 uml=EF"]),
    ('j', ["circ=135 cy=439 fr=1D527 math=237 opf=1D55B scr=1D4BF sercy=458 ukcy=454"]),
    ('k', ["appa=3BA appav=3F0 cedil=137 cy=43A fr=1D528 green=138 hcy=445 jcy=45C opf=1D55C",
      "scr=1D4C0"]),
    ('l', ["Aarr=21DA Arr=21D0 Atail=291B Barr=290E E=2266 Eg=2A8B Har=2962 acute=13A aemptyv=29B4",
      "agran=2112 ambda=3BB ang=27E8 angd=2991 angle=27E8 ap=2A85 aquo=AB arr=2190 arrb=21E4",
      "arrbfs=291F arrfs=291D arrhk=21A9 arrlp=21AB arrpl=2939 arrsim=2973 arrtl=21A2 at=2AAB",
      "atail=2919 ate=2AAD ates=2AAD+FE00 barr=290C bbrk=2772 brace=7B brack=5B brke=298B",
      "brksld=298F brkslu=298D caron=13E cedil=13C ceil=2308 cub=7B cy=43B dca=2936 dquo=201C",
      "dquor=201E drdhar=2967 drushar=294B dsh=21B2 e=2264 eftarrow=2190 eftarrowtail=21A2",
      "eftharpoondown=21BD eftharpoonup=21BC eftleftarrows=21C7 eftrightarrow=2194",
      "eftrightarrows=21C6 eftrightharpoons=21CB eftrightsquigarrow=21AD eftthreetimes=22CB",
      "eg=22DA eq=2264 eqq=2266 eqslant=2A7D es=2A7D escc=2AA8 esdot=2A7F esdoto=2A81",
      "esdotor=2A83 esg=22DA+FE00 esges=2A93 essapprox=2A85 essdot=22D6 esseqgtr=22DA",
      "esseqqgtr=2A8B essgtr=2276 esssim=2272 fisht=297C floor=230A fr=1D529 g=2276 gE=2A91",
      "hard=21BD haru=21BC harul=296A hblk=2584 jcy=459 l=226A larr=21C7 lcorner=231E",
      "lhard=296B ltri=25FA midot=140 moust=23B0 moustache=23B0 nE=2268 nap=2A89 napprox=2A89",
      "ne=2A87 neq=2A87 neqq=2268 nsim=22E6 oang=27EC oarr=21FD obrk=27E6 ongleftarrow=27F5",
      "ongleftrightarrow=27F7 ongmapsto=27FC ongrightarrow=27F6 ooparrowleft=21AB",
      "ooparrowright=21AC opar=2985 opf=1D55D oplus=2A2D otimes=2A34 owast=2217 owbar=5F",
      "oz=25CA ozenge=25CA ozf=29EB par=28 parlt=2993 rarr=21C6 rcorner=231F rhar=21CB",
      "rhard=296D rm=200E rtri=22BF saquo=2039 scr=1D4C1 sh=21B0 sim=2272 sime=2A8D simg=2A8F",
      "sqb=5B squo=2018 squor=201A strok=142 t=3C tcc=2AA6 tcir=2A79 tdot=22D6 three=22CB",
      "times=22C9 tlarr=2976 tquest=2A7B trPar=2996 tri=25C3 trie=22B4 trif=25C2 urdshar=294A",
      "uruhar=2966 vertneqq=2268+FE00 vnE=2268+FE00"]),
    ('m', ["DDot=223A acr=AF ale=2642 alt=2720 altese=2720 ap=21A6 apsto=21A6 apstodown=21A7",
      "apstoleft=21A4 apstoup=21A5 arker=25AE comma=2A29 cy=43C dash=2014 easuredangle=2221",
      "fr=1D52A ho=2127 icro=B5 id=2223 idast=2A idcir=2AF0 iddot=B7 inus=2212 inusb=229F",
      "inusd=2238 inusdu=2A2A lcp=2ADB ldr=2026 nplus=2213 odels=22A7 opf=1D55E p=2213",
      "scr=1D4C2 stpos=223E u=3BC ultimap=22B8 umap=22B8"]),
    ('n', ["Gg=22D9+338 Gt=226B+20D2 Gtv=226B+338 Leftarrow=21CD Leftrightarrow=21CE Ll=22D8+338",
      "Lt=226A+20D2 Ltv=226A+338 Rightarrow=21CF VDash=22AF Vdash=22AE abla=2207 acute=144",
      "ang=2220+20D2 ap=2249 apE=2A70+338 apid=224B+338 apos=149 approx=2249 atur=266E",
      "atural=266E aturals=2115 bsp=A0 bump=224E+338 bumpe=224F+338 cap=2A43 caron=148",
      "cedil=146 cong=2247 congdot=2A6D+338 cup=2A42 cy=43D dash=2013 e=2260 eArr=21D7",
      "earhk=2924 earr=2197 earrow=2197 edot=2250+338 equiv=2262 esear=2928 esim=2242+338",
      "exist=2204 exists=2204 fr=1D52B gE=2267+338 ge=2271 geq=2271 geqq=2267+338",
      "geqslant=2A7E+338 ges=2A7E+338 gsim=2275 gt=226F gtr=226F hArr=21CE harr=21AE",
      "hpar=2AF2 i=220B is=22FC isd=22FA iv=220B jcy=45A lArr=21CD lE=2266+338 larr=219A",
      "ldr=2025 le=2270 leftarrow=219A leftrightarrow=21AE leq=2270 leqq=2266+338",
      "leqslant=2A7D+338 les=2A7D+338 less=226E lsim=2274 lt=226E ltri=22EA ltrie=22EC",
      "mid=2224 opf=1D55F ot=AC otin=2209 otinE=22F9+338 otindot=22F5+338 otinva=2209",
      "otinvb=22F7 otinvc=22F6 otni=220C otniva=220C otnivb=22FE otnivc=22FD par=2226",
      "parallel=2226 parsl=2AFD+20E5 part=2202+338 polint=2A14 pr=2280 prcue=22E0",
      "pre=2AAF+338 prec=2280 preceq=2AAF+338 rArr=21CF rarr=219B rarrc=2933+338",
      "rarrw=219D+338 rightarrow=219B rtri=22EB rtrie=22ED sc=2281 sccue=22E1 sce=2AB0+338",
      "scr=1D4C3 shortmid=2224 shortparallel=2226 sim=2241 sime=2244 simeq=2244 smid=2224",
      "spar=2226 sqsube=22E2 sqsupe=22E3 sub=2284 subE=2AC5+338 sube=2288 subset=2282+20D2",
      "subseteq=2288 subseteqq=2AC5+338 succ=2281 succeq=2AB0+338 sup=2285 supE=2AC6+338",
      "supe=2289 supset=2283+20D2 supseteq=2289 supseteqq=2AC6+338 tgl=2279 tilde=F1 tlg=2278",
      "triangleleft=22EA trianglelefteq=22EC triangleright=22EB trianglerighteq=22ED u=3BD",
      "um=23 umero=2116 umsp=2007 vDash=22AD vHarr=2904 vap=224D+20D2 vdash=22AC",
      "vge=2265+20D2 vgt=3E+20D2 vinfin=29DE vlArr=2902 vle=2264+20D2 vlt=3C+20D2",
      "vltrie=22B4+20D2 vrArr=2903 vrtrie=22B5+20D2 vsim=223C+20D2 wArr=21D6 warhk=2923",
      "warr=2196 warrow=2196 wnear=2927"]),
    ('o', ["S=24C8 acute=F3 ast=229B cir=229A circ=F4 cy=43E dash=229D dblac=151 div=2A38 dot=2299",
      "dsold=29BC elig=153 fcir=29BF fr=1D52C gon=2DB grave=F2 gt=29C1 hbar=29B5 hm=3A9",
      "int=222E larr=21BA lcir=29BE lcross=29BB line=203E lt=29C0 macr=14D mega=3C9",
      "micron=3BF mid=29B6 minus=2296 opf=1D560 par=29B7 perp=29B9 plus=2295 r=2228 rarr=21BB",
      "rd=2A5D rder=2134 rderof=2134 rdf=AA rdm=BA rigof=22B6 ror=2A56 rslope=2A57 rv=2A5B",
      "scr=2134 slash=F8 sol=2298 tilde=F5 times=2297 timesas=2A36 uml=F6 vbar=233D"]),
    ('p', ["ar=2225 ara=B6 arallel=2225 arsim=2AF3 arsl=2AFD art=2202 cy=43F ercnt=25 eriod=2E",
      "ermil=2030 erp=22A5 ertenk=2031 fr=1D52D hi=3C6 hiv=3D5 hmmat=2133 hone=260E i=3C0",
      "itchfork=22D4 iv=3D6 lanck=210F lanckh=210E lankv=210F lus=2B lusacir=2A23 lusb=229E",
      "luscir=2A22 lusdo=2214 lusdu=2A25 luse=2A72 lusmn=B1 lussim=2A26 lustwo=2A27 m=B1",
      "ointint=2A15 opf=1D561 ound=A3 r=227A rE=2AB3 rap=2AB7 rcue=227C re=2AAF rec=227A",
      "recapprox=2AB7 reccurlyeq=227C receq=2AAF recnapprox=2AB9 recneqq=2AB5 recnsim=22E8",
      "recsim=227E rime=2032 rimes=2119 rnE=2AB5 rnap=2AB9 rnsim=22E8 rod=220F rofalar=232E",
      "rofline=2312 rofsurf=2313 rop=221D ropto=221D rsim=227E rurel=22B0 scr=1D4C5 si=3C8",
      "uncsp=2008"]),
    ('q', ["fr=1D52E int=2A0C opf=1D562 prime=2057 scr=1D4C6 uaternions=210D uatint=2A16 uest=3F",
      "uesteq=225F uot=22"]),
    ('r', ["Aarr=21DB Arr=21D2 Atail=291C Barr=290F Har=2964 ace=223D+331 acute=155 adic=221A",
      "aemptyv=29B3 ang=27E9 angd=2992 ange=29A5 angle=27E9 aquo=BB arr=2192 arrap=2975",
      "arrb=21E5 arrbfs=2920 arrc=2933 arrfs=291E arrhk=21AA arrlp=21AC arrpl=2945",
      "arrsim=2974 arrtl=21A3 arrw=219D atail=291A atio=2236 ationals=211A barr=290D",
      "bbrk=2773 brace=7D brack=5D brke=298C brksld=298E brkslu=2990 caron=159 cedil=157",
      "ceil=2309 cub=7D cy=440 dca=2937 dldhar=2969 dquo=201D dquor=201D dsh=21B3 eal=211C",
      "ealine=211B ealpart=211C eals=211D ect=25AD eg=AE fisht=297D floor=230B fr=1D52F",
      "hard=21C1 haru=21C0 harul=296C ho=3C1 hov=3F1 ightarrow=2192 ightarrowtail=21A3",
      "ightharpoondown=21C1 ightharpoonup=21C0 ightleftarrows=21C4 ightleftharpoons=21CC",
      "ightrightarrows=21C9 ightsquigarrow=219D ightthreetimes=22CC ing=2DA isingdotseq=2253",
      "larr=21C4 lhar=21CC lm=200F moust=23B1 moustache=23B1 nmid=2AEE oang=27ED oarr=21FE",
      "obrk=27E7 opar=2986 opf=1D563 oplus=2A2E otimes=2A35 par=29 pargt=2994 ppolint=2A12",
      "rarr=21C9 saquo=203A scr=1D4C7 sh=21B1 sqb=5D squo=2019 squor=2019 three=22CC",
      "times=22CA tri=25B9 trie=22B5 trif=25B8 triltri=29CE uluhar=2968 x=211E"]),
    ('s', ["acute=15B bquo=201A c=227B cE=2AB4 cap=2AB8 caron=161 ccue=227D ce=2AB0 cedil=15F",
      "circ=15D cnE=2AB6 cnap=2ABA cnsim=22E9 cpolint=2A13 csim=227F cy=441 dot=22C5",
      "dotb=22A1 dote=2A66 eArr=21D8 earhk=2925 earr=2198 earrow=2198 ect=A7 emi=3B",
      "eswar=2929 etminus=2216 etmn=2216 ext=2736 fr=1D530 frown=2322 harp=266F hchcy=449",
      "hcy=448 hortmid=2223 hortparallel=2225 hy=AD igma=3C3 igmaf=3C2 igmav=3C2 im=223C",
      "imdot=2A6A ime=2243 imeq=2243 img=2A9E imgE=2AA0 iml=2A9D imlE=2A9F imne=2246",
      "implus=2A24 imrarr=2972 larr=2190 mallsetminus=2216 mashp=2A33 meparsl=29E4 mid=2223",
      "mile=2323 mt=2AAA mte=2AAC mtes=2AAC+FE00 oftcy=44C ol=2F olb=29C4 olbar=233F",
      "opf=1D564 pades=2660 padesuit=2660 par=2225 qcap=2293 qcaps=2293+FE00 qcup=2294",
      "qcups=2294+FE00 qsub=228F qsube=2291 qsubset=228F qsubseteq=2291 qsup=2290 qsupe=2292",
      "qsupset=2290 qsupseteq=2292 qu=25A1 quare=25A1 quarf=25AA quf=25AA rarr=2192 scr=1D4C8",
      "setmn=2216 smile=2323 starf=22C6 tar=2606 tarf=2605 traightepsilon=3F5 traightphi=3D5",
      "trns=AF ub=2282 ubE=2AC5 ubdot=2ABD ube=2286 ubedot=2AC3 ubmult=2AC1 ubnE=2ACB",
      "ubne=228A ubplus=2ABF ubrarr=2979 ubset=2282 ubseteq=2286 ubseteqq=2AC5 ubsetneq=228A",
      "ubsetneqq=2ACB ubsim=2AC7 ubsub=2AD5 ubsup=2AD3 ucc=227B uccapprox=2AB8",
      "ucccurlyeq=227D ucceq=2AB0 uccnapprox=2ABA uccneqq=2AB6 uccnsim=22E9 uccsim=227F",
      "um=2211 ung=266A up=2283 up1=B9 up2=B2 up3=B3 upE=2AC6 updot=2ABE updsub=2AD8 upe=2287",
      "upedot=2AC4 uphsol=27C9 uphsub=2AD7 uplarr=297B upmult=2AC2 upnE=2ACC upne=228B",
      "upplus=2AC0 upset=2283 upseteq=2287 upseteqq=2AC6 upsetneq=228B upsetneqq=2ACC",
      "upsim=2AC8 upsub=2AD4 upsup=2AD6 wArr=21D9 warhk=2926 warr=2199 warrow=2199 wnwar=292A",
      "zlig=DF"]),
    ('t', ["arget=2316 au=3C4 brk=23B4 caron=165 cedil=163 cy=442 dot=20DB elrec=2315 fr=1D531",
      "here4=2234 herefore=2234 heta=3B8 hetasym=3D1 hetav=3D1 hickapprox=2248 hicksim=223C",
      "hinsp=2009 hkap=2248 hksim=223C horn=FE ilde=2DC imes=D7 imesb=22A0 imesbar=2A31",
      "imesd=2A30 int=222D oea=2928 op=22A4 opbot=2336 opcir=2AF1 opf=1D565 opfork=2ADA",
      "osa=2929 prime=2034 rade=2122 riangle=25B5 riangledown=25BF riangleleft=25C3",
      "rianglelefteq=22B4 riangleq=225C riangleright=25B9 rianglerighteq=22B5 ridot=25EC",
      "rie=225C riminus=2A3A riplus=2A39 risb=29CD ritime=2A3B rpezium=23E2 scr=1D4C9 scy=446",
      "shcy=45B strok=167 wixt=226C woheadleftarrow=219E woheadrightarrow=21A0"]),
    ('u', ["Arr=21D1 Har=2963 acute=FA arr=2191 brcy=45E breve=16D circ=FB cy=443 darr=21C5",
      "dblac=171 dhar=296E fisht=297E fr=1D532 grave=F9 harl=21BF harr=21BE hblk=2580",
      "lcorn=231C lcorner=231C lcrop=230F ltri=25F8 macr=16B ml=A8 ogon=173 opf=1D566",
      "parrow=2191 pdownarrow=2195 pharpoonleft=21BF pharpoonright=21BE plus=228E psi=3C5",
      "psih=3D2 psilon=3C5 puparrows=21C8 rcorn=231D rcorner=231D rcrop=230E ring=16F",
      "rtri=25F9 scr=1D4CA tdot=22F0 tilde=169 tri=25B5 trif=25B4 uarr=21C8 uml=FC",
      "wangle=29A7"]),
    ('v', ["Arr=21D5 Bar=2AE8 Barv=2AE9 Dash=22A8 angrt=299C arepsilon=3F5 arkappa=3F0",
      "arnothing=2205 arphi=3D5 arpi=3D6 arpropto=221D arr=2195 arrho=3F1 arsigma=3C2",
      "arsubsetneq=228A+FE00 arsubsetneqq=2ACB+FE00 arsupsetneq=228B+FE00",
      "arsupsetneqq=2ACC+FE00 artheta=3D1 artriangleleft=22B2 artriangleright=22B3 cy=432",
      "dash=22A2 ee=2228 eebar=22BB eeeq=225A ellip=22EE erbar=7C ert=7C fr=1D533 ltri=22B2",
      "nsub=2282+20D2 nsup=2283+20D2 opf=1D567 prop=221D rtri=22B3 scr=1D4CB subnE=2ACB+FE00",
      "subne=228A+FE00 supnE=2ACC+FE00 supne=228B+FE00 zigzag=299A"]),
    ('w', ["circ=175 edbar=2A5F edge=2227 edgeq=2259 eierp=2118 fr=1D534 opf=1D568 p=2118 r=2240",
      "reath=2240 scr=1D4CC"]),
    ('x', ["cap=22C2 circ=25EF cup=22C3 dtri=25BD fr=1D535 hArr=27FA harr=27F7 i=3BE lArr=27F8",
      "larr=27F5 map=27FC nis=22FB odot=2A00 opf=1D569 oplus=2A01 otime=2A02 rArr=27F9",
      "rarr=27F6 scr=1D4CD sqcup=2A06 uplus=2A04 utri=25B3 vee=22C1 wedge=22C0"]),
    ('y', ["acute=FD acy=44F circ=177 cy=44B en=A5 fr=1D536 icy=457 opf=1D56A scr=1D4CE ucy=44E",
      "uml=FF"]),
    ('z', ["acute=17A caron=17E cy=437 dot=17C eetrf=2128 eta=3B6 fr=1D537 hcy=436 igrarr=21DD",
      "opf=1D56B scr=1D4CF wj=200D wnj=200C"])]

/-- The entries of the references, by their first letter. -/
def entityEntries : List (Char × List (List Char)) :=
  entityNames.map fun row =>
    (row.1, row.2.flatMap fun names => Text.splitBy (· == ' ') names.toList)

/-- The code points of the entry that begins with `name` and an equals sign. -/
def entryCode? (name : List Char) : List (List Char) → Option (List Char)
  | [] => none
  | entry :: rest =>
    if (name ++ ['=']).isPrefixOf entry then some (entry.drop (name.length + 1))
    else entryCode? name rest

/-- The code points of the reference with a name. -/
def entityCode? (name : List Char) : Option (List Char) :=
  match name with
  | [] => none
  | c :: rest => (entityEntries.lookup c).bind (entryCode? rest)

/-- The characters of the reference with a name. -/
def entity? (name : List Char) : Option (List Char) :=
  (entityCode? name).map fun code =>
    (Text.splitBy (· == '+') code).map fun digits => Char.ofNat (Text.digitsValue 16 digits)

end DocPages.Markdown
