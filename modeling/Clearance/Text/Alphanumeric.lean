import Clearance.Text.CodeSet

/-! Letters and digits of all scripts: the property Alphabetic and the numbers. -/
namespace Clearance.Text

def wideLetters : CodeSet := .ofHex "
  aa ab b5 b6 ba bb c0 d7 d8 f7 f8 2c2 2c6 2d2 2e0 2e5 2ec 2ed 2ee 2ef 345 346 363 375 376 378 37a
  37e 37f 380 386 387 388 38b 38c 38d 38e 3a2 3a3 3f6 3f7 482 48a 530 531 557 559 55a 560 589 5b0
  5be 5bf 5c0 5c1 5c3 5c4 5c6 5c7 5c8 5d0 5eb 5ef 5f3 610 61b 620 658 659 660 66e 6d4 6d5 6dd 6e1
  6e9 6ed 6f0 6fa 6fd 6ff 700 710 740 74d 7b2 7ca 7eb 7f4 7f6 7fa 7fb 800 818 81a 82d 840 859 860
  86b 870 888 889 890 897 898 8a0 8ca 8d4 8e0 8e3 8ea 8f0 93c 93d 94d 94e 951 955 964 971 984 985
  98d 98f 991 993 9a9 9aa 9b1 9b2 9b3 9b6 9ba 9bd 9c5 9c7 9c9 9cb 9cd 9ce 9cf 9d7 9d8 9dc 9de 9df
  9e4 9f0 9f2 9fc 9fd a01 a04 a05 a0b a0f a11 a13 a29 a2a a31 a32 a34 a35 a37 a38 a3a a3e a43 a47
  a49 a4b a4d a51 a52 a59 a5d a5e a5f a70 a76 a81 a84 a85 a8e a8f a92 a93 aa9 aaa ab1 ab2 ab4 ab5
  aba abd ac6 ac7 aca acb acd ad0 ad1 ae0 ae4 af9 afd b01 b04 b05 b0d b0f b11 b13 b29 b2a b31 b32
  b34 b35 b3a b3d b45 b47 b49 b4b b4d b56 b58 b5c b5e b5f b64 b71 b72 b82 b84 b85 b8b b8e b91 b92
  b96 b99 b9b b9c b9d b9e ba0 ba3 ba5 ba8 bab bae bba bbe bc3 bc6 bc9 bca bcd bd0 bd1 bd7 bd8 c00
  c0d c0e c11 c12 c29 c2a c3a c3d c45 c46 c49 c4a c4d c55 c57 c58 c5b c5c c5e c60 c64 c80 c84 c85
  c8d c8e c91 c92 ca9 caa cb4 cb5 cba cbd cc5 cc6 cc9 cca ccd cd5 cd7 cdc cdf ce0 ce4 cf1 cf4 d00
  d0d d0e d11 d12 d3b d3d d45 d46 d49 d4a d4d d4e d4f d54 d58 d5f d64 d7a d80 d81 d84 d85 d97 d9a
  db2 db3 dbc dbd dbe dc0 dc7 dcf dd5 dd6 dd7 dd8 de0 df2 df4 e01 e3b e40 e47 e4d e4e e81 e83 e84
  e85 e86 e8b e8c ea4 ea5 ea6 ea7 eba ebb ebe ec0 ec5 ec6 ec7 ecd ece edc ee0 f00 f01 f40 f48 f49
  f6d f71 f84 f88 f98 f99 fbd 1000 1037 1038 1039 103b 1040 1050 1090 109a 109e 10a0 10c6 10c7
  10c8 10cd 10ce 10d0 10fb 10fc 1249 124a 124e 1250 1257 1258 1259 125a 125e 1260 1289 128a 128e
  1290 12b1 12b2 12b6 12b8 12bf 12c0 12c1 12c2 12c6 12c8 12d7 12d8 1311 1312 1316 1318 135b 1380
  1390 13a0 13f6 13f8 13fe 1401 166d 166f 1680 1681 169b 16a0 16eb 16ee 16f9 1700 1714 171f 1734
  1740 1754 1760 176d 176e 1771 1772 1774 1780 17b4 17b6 17c9 17d7 17d8 17dc 17dd 1820 1879 1880
  18ab 18b0 18f6 1900 191f 1920 192c 1930 1939 1950 196e 1970 1975 1980 19ac 19b0 19ca 1a00 1a1c
  1a20 1a5f 1a61 1a75 1aa7 1aa8 1abf 1ac1 1acc 1acf 1b00 1b34 1b35 1b44 1b45 1b4d 1b80 1baa 1bac
  1bb0 1bba 1be6 1be7 1bf2 1c00 1c37 1c4d 1c50 1c5a 1c7e 1c80 1c8b 1c90 1cbb 1cbd 1cc0 1ce9 1ced
  1cee 1cf4 1cf5 1cf7 1cfa 1cfb 1d00 1dc0 1dd3 1df5 1e00 1f16 1f18 1f1e 1f20 1f46 1f48 1f4e 1f50
  1f58 1f59 1f5a 1f5b 1f5c 1f5d 1f5e 1f5f 1f7e 1f80 1fb5 1fb6 1fbd 1fbe 1fbf 1fc2 1fc5 1fc6 1fcd
  1fd0 1fd4 1fd6 1fdc 1fe0 1fed 1ff2 1ff5 1ff6 1ffd 2071 2072 207f 2080 2090 209d 2102 2103 2107
  2108 210a 2114 2115 2116 2119 211e 2124 2125 2126 2127 2128 2129 212a 212e 212f 213a 213c 2140
  2145 214a 214e 214f 2160 2189 24b6 24ea 2c00 2ce5 2ceb 2cef 2cf2 2cf4 2d00 2d26 2d27 2d28 2d2d
  2d2e 2d30 2d68 2d6f 2d70 2d80 2d97 2da0 2da7 2da8 2daf 2db0 2db7 2db8 2dbf 2dc0 2dc7 2dc8 2dcf
  2dd0 2dd7 2dd8 2ddf 2de0 2e00 2e2f 2e30 3005 3008 3021 302a 3031 3036 3038 303d 3041 3097 309d
  30a0 30a1 30fb 30fc 3100 3105 3130 3131 318f 31a0 31c0 31f0 3200 3400 4dc0 4e00 a48d a4d0 a4fe
  a500 a60d a610 a620 a62a a62c a640 a66f a674 a67c a67f a6f0 a717 a720 a722 a789 a78b a7dd a7f1
  a806 a807 a828 a840 a874 a880 a8c4 a8c5 a8c6 a8f2 a8f8 a8fb a8fc a8fd a900 a90a a92b a930 a953
  a960 a97d a980 a9b3 a9b4 a9c0 a9cf a9d0 a9e0 a9f0 a9fa a9ff aa00 aa37 aa40 aa4e aa60 aa77 aa7a
  aabf aac0 aac1 aac2 aac3 aadb aade aae0 aaf0 aaf2 aaf6 ab01 ab07 ab09 ab0f ab11 ab17 ab20 ab27
  ab28 ab2f ab30 ab5b ab5c ab6a ab70 abeb ac00 d7a4 d7b0 d7c7 d7cb d7fc f900 fa6e fa70 fada fb00
  fb07 fb13 fb18 fb1d fb29 fb2a fb37 fb38 fb3d fb3e fb3f fb40 fb42 fb43 fb45 fb46 fbb2 fbd3 fd3e
  fd50 fd90 fd92 fdc8 fdf0 fdfc fe70 fe75 fe76 fefd ff21 ff3b ff41 ff5b ff66 ffbf ffc2 ffc8 ffca
  ffd0 ffd2 ffd8 ffda ffdd 10000 1000c 1000d 10027 10028 1003b 1003c 1003e 1003f 1004e 10050 1005e
  10080 100fb 10140 10175 10280 1029d 102a0 102d1 10300 10320 1032d 1034b 10350 1037b 10380 1039e
  103a0 103c4 103c8 103d0 103d1 103d6 10400 1049e 104b0 104d4 104d8 104fc 10500 10528 10530 10564
  10570 1057b 1057c 1058b 1058c 10593 10594 10596 10597 105a2 105a3 105b2 105b3 105ba 105bb 105bd
  105c0 105f4 10600 10737 10740 10756 10760 10768 10780 10786 10787 107b1 107b2 107bb 10800 10806
  10808 10809 1080a 10836 10837 10839 1083c 1083d 1083f 10856 10860 10877 10880 1089f 108e0 108f3
  108f4 108f6 10900 10916 10920 1093a 10940 1095a 10980 109b8 109be 109c0 10a00 10a04 10a05 10a07
  10a0c 10a14 10a15 10a18 10a19 10a36 10a60 10a7d 10a80 10a9d 10ac0 10ac8 10ac9 10ae5 10b00 10b36
  10b40 10b56 10b60 10b73 10b80 10b92 10c00 10c49 10c80 10cb3 10cc0 10cf3 10d00 10d28 10d4a 10d66
  10d69 10d6a 10d6f 10d86 10e80 10eaa 10eab 10ead 10eb0 10eb2 10ec2 10ec8 10efa 10efd 10f00 10f1d
  10f27 10f28 10f30 10f46 10f70 10f82 10fb0 10fc5 10fe0 10ff7 11000 11046 11071 11076 11080 110b9
  110c2 110c3 110d0 110e9 11100 11133 11144 11148 11150 11173 11176 11177 11180 111c0 111c1 111c5
  111ce 111d0 111da 111db 111dc 111dd 11200 11212 11213 11235 11237 11238 1123e 11242 11280 11287
  11288 11289 1128a 1128e 1128f 1129e 1129f 112a9 112b0 112e9 11300 11304 11305 1130d 1130f 11311
  11313 11329 1132a 11331 11332 11334 11335 1133a 1133d 11345 11347 11349 1134b 1134d 11350 11351
  11357 11358 1135d 11364 11380 1138a 1138b 1138c 1138e 1138f 11390 113b6 113b7 113c1 113c2 113c3
  113c5 113c6 113c7 113cb 113cc 113ce 113d1 113d2 113d3 113d4 11400 11442 11443 11446 11447 1144b
  1145f 11462 11480 114c2 114c4 114c6 114c7 114c8 11580 115b6 115b8 115bf 115d8 115de 11600 1163f
  11640 11641 11644 11645 11680 116b6 116b8 116b9 11700 1171b 1171d 1172b 11740 11747 11800 11839
  118a0 118e0 118ff 11907 11909 1190a 1190c 11914 11915 11917 11918 11936 11937 11939 1193b 1193d
  1193f 11943 119a0 119a8 119aa 119d8 119da 119e0 119e1 119e2 119e3 119e5 11a00 11a33 11a35 11a3f
  11a50 11a98 11a9d 11a9e 11ab0 11af9 11b60 11b68 11bc0 11be1 11c00 11c09 11c0a 11c37 11c38 11c3f
  11c40 11c41 11c72 11c90 11c92 11ca8 11ca9 11cb7 11d00 11d07 11d08 11d0a 11d0b 11d37 11d3a 11d3b
  11d3c 11d3e 11d3f 11d42 11d43 11d44 11d46 11d48 11d60 11d66 11d67 11d69 11d6a 11d8f 11d90 11d92
  11d93 11d97 11d98 11d99 11db0 11ddc 11ee0 11ef7 11f00 11f11 11f12 11f3b 11f3e 11f41 11fb0 11fb1
  12000 1239a 12400 1246f 12480 12544 12f90 12ff1 13000 13430 13441 13447 13460 143fb 14400 14647
  16100 1612f 16800 16a39 16a40 16a5f 16a70 16abf 16ad0 16aee 16b00 16b30 16b40 16b44 16b63 16b78
  16b7d 16b90 16d40 16d6d 16e40 16e80 16ea0 16eb9 16ebb 16ed4 16f00 16f4b 16f4f 16f88 16f8f 16fa0
  16fe0 16fe2 16fe3 16fe4 16ff0 16ff7 17000 18cd6 18cff 18d1f 18d80 18df3 1aff0 1aff4 1aff5 1affc
  1affd 1afff 1b000 1b123 1b132 1b133 1b150 1b153 1b155 1b156 1b164 1b168 1b170 1b2fc 1bc00 1bc6b
  1bc70 1bc7d 1bc80 1bc89 1bc90 1bc9a 1bc9e 1bc9f 1d400 1d455 1d456 1d49d 1d49e 1d4a0 1d4a2 1d4a3
  1d4a5 1d4a7 1d4a9 1d4ad 1d4ae 1d4ba 1d4bb 1d4bc 1d4bd 1d4c4 1d4c5 1d506 1d507 1d50b 1d50d 1d515
  1d516 1d51d 1d51e 1d53a 1d53b 1d53f 1d540 1d545 1d546 1d547 1d54a 1d551 1d552 1d6a6 1d6a8 1d6c1
  1d6c2 1d6db 1d6dc 1d6fb 1d6fc 1d715 1d716 1d735 1d736 1d74f 1d750 1d76f 1d770 1d789 1d78a 1d7a9
  1d7aa 1d7c3 1d7c4 1d7cc 1df00 1df1f 1df25 1df2b 1e000 1e007 1e008 1e019 1e01b 1e022 1e023 1e025
  1e026 1e02b 1e030 1e06e 1e08f 1e090 1e100 1e12d 1e137 1e13e 1e14e 1e14f 1e290 1e2ae 1e2c0 1e2ec
  1e4d0 1e4ec 1e5d0 1e5ee 1e5f0 1e5f1 1e6c0 1e6df 1e6e0 1e6f6 1e6fe 1e700 1e7e0 1e7e7 1e7e8 1e7ec
  1e7ed 1e7ef 1e7f0 1e7ff 1e800 1e8c5 1e900 1e944 1e947 1e948 1e94b 1e94c 1ee00 1ee04 1ee05 1ee20
  1ee21 1ee23 1ee24 1ee25 1ee27 1ee28 1ee29 1ee33 1ee34 1ee38 1ee39 1ee3a 1ee3b 1ee3c 1ee42 1ee43
  1ee47 1ee48 1ee49 1ee4a 1ee4b 1ee4c 1ee4d 1ee50 1ee51 1ee53 1ee54 1ee55 1ee57 1ee58 1ee59 1ee5a
  1ee5b 1ee5c 1ee5d 1ee5e 1ee5f 1ee60 1ee61 1ee63 1ee64 1ee65 1ee67 1ee6b 1ee6c 1ee73 1ee74 1ee78
  1ee79 1ee7d 1ee7e 1ee7f 1ee80 1ee8a 1ee8b 1ee9c 1eea1 1eea4 1eea5 1eeaa 1eeab 1eebc 1f130 1f14a
  1f150 1f16a 1f170 1f18a 20000 2a6e0 2a700 2b81e 2b820 2ceae 2ceb0 2ebe1 2ebf0 2ee5e 2f800 2fa1e
  30000 3134b 31350 3347a"

def wideNumbers : CodeSet := .ofHex "
  b2 b4 b9 ba bc bf 660 66a 6f0 6fa 7c0 7ca 966 970 9e6 9f0 9f4 9fa a66 a70 ae6 af0 b66 b70 b72
  b78 be6 bf3 c66 c70 c78 c7f ce6 cf0 d58 d5f d66 d79 de6 df0 e50 e5a ed0 eda f20 f34 1040 104a
  1090 109a 1369 137d 16ee 16f1 17e0 17ea 17f0 17fa 1810 181a 1946 1950 19d0 19db 1a80 1a8a 1a90
  1a9a 1b50 1b5a 1bb0 1bba 1c40 1c4a 1c50 1c5a 2070 2071 2074 207a 2080 208a 2150 2183 2185 218a
  2460 249c 24ea 2500 2776 2794 2cfd 2cfe 3007 3008 3021 302a 3038 303b 3192 3196 3220 322a 3248
  3250 3251 3260 3280 328a 32b1 32c0 a620 a62a a6e6 a6f0 a830 a836 a8d0 a8da a900 a90a a9d0 a9da
  a9f0 a9fa aa50 aa5a abf0 abfa ff10 ff1a 10107 10134 10140 10179 1018a 1018c 102e1 102fc 10320
  10324 10341 10342 1034a 1034b 103d1 103d6 104a0 104aa 10858 10860 10879 10880 108a7 108b0 108fb
  10900 10916 1091c 109bc 109be 109c0 109d0 109d2 10a00 10a40 10a49 10a7d 10a7f 10a9d 10aa0 10aeb
  10af0 10b58 10b60 10b78 10b80 10ba9 10bb0 10cfa 10d00 10d30 10d3a 10d40 10d4a 10e60 10e7f 10f1d
  10f27 10f51 10f55 10fc5 10fcc 11052 11070 110f0 110fa 11136 11140 111d0 111da 111e1 111f5 112f0
  112fa 11450 1145a 114d0 114da 11650 1165a 116c0 116ca 116d0 116e4 11730 1173c 118e0 118f3 11950
  1195a 11bf0 11bfa 11c50 11c6d 11d50 11d5a 11da0 11daa 11de0 11dea 11f50 11f5a 11fc0 11fd5 12400
  1246f 16130 1613a 16a60 16a6a 16ac0 16aca 16b50 16b5a 16b5b 16b62 16d70 16d7a 16e80 16e97 16ff4
  16ff7 1ccf0 1ccfa 1d2c0 1d2d4 1d2e0 1d2f4 1d360 1d379 1d7ce 1d800 1e140 1e14a 1e2f0 1e2fa 1e4f0
  1e4fa 1e5f1 1e5fb 1e8c7 1e8d0 1e950 1e95a 1ec71 1ecac 1ecad 1ecb0 1ecb1 1ecb5 1ed01 1ed2e 1ed2f
  1ed3e 1f100 1f10d 1fbf0 1fbfa"

def isLetter (c : Char) : Bool := c.isAlpha || wideLetters.contains c

def isAlphanumeric (c : Char) : Bool := isLetter c || c.isDigit || wideNumbers.contains c

end Clearance.Text
