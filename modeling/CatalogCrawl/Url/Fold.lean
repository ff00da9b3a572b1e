namespace CatalogCrawl.Url

structure FoldRun where
  first : Nat
  last : Nat
  step : Nat
  offset : Int

def foldRuns : Array FoldRun := #[
  ⟨170, 170, 1, -73⟩, ⟨178, 179, 1, -128⟩, ⟨181, 181, 1, 775⟩, ⟨185, 185, 1, -136⟩,
  ⟨186, 186, 1, -75⟩, ⟨192, 214, 1, 32⟩, ⟨216, 222, 1, 32⟩, ⟨256, 302, 2, 1⟩, ⟨308, 310, 2, 1⟩,
  ⟨313, 317, 2, 1⟩, ⟨321, 327, 2, 1⟩, ⟨330, 374, 2, 1⟩, ⟨376, 376, 1, -121⟩, ⟨377, 381, 2, 1⟩,
  ⟨383, 383, 1, -268⟩, ⟨385, 385, 1, 210⟩, ⟨386, 388, 2, 1⟩, ⟨390, 390, 1, 206⟩,
  ⟨391, 391, 1, 1⟩, ⟨393, 394, 1, 205⟩, ⟨395, 395, 1, 1⟩, ⟨398, 398, 1, 79⟩, ⟨399, 399, 1, 202⟩,
  ⟨400, 400, 1, 203⟩, ⟨401, 401, 1, 1⟩, ⟨403, 403, 1, 205⟩, ⟨404, 404, 1, 207⟩,
  ⟨406, 406, 1, 211⟩, ⟨407, 407, 1, 209⟩, ⟨408, 408, 1, 1⟩, ⟨412, 412, 1, 211⟩,
  ⟨413, 413, 1, 213⟩, ⟨415, 415, 1, 214⟩, ⟨416, 420, 2, 1⟩, ⟨422, 422, 1, 218⟩, ⟨423, 423, 1, 1⟩,
  ⟨425, 425, 1, 218⟩, ⟨428, 428, 1, 1⟩, ⟨430, 430, 1, 218⟩, ⟨431, 431, 1, 1⟩, ⟨433, 434, 1, 217⟩,
  ⟨435, 437, 2, 1⟩, ⟨439, 439, 1, 219⟩, ⟨440, 440, 1, 1⟩, ⟨444, 444, 1, 1⟩, ⟨461, 475, 2, 1⟩,
  ⟨478, 494, 2, 1⟩, ⟨500, 500, 1, 1⟩, ⟨502, 502, 1, -97⟩, ⟨503, 503, 1, -56⟩, ⟨504, 542, 2, 1⟩,
  ⟨544, 544, 1, -130⟩, ⟨546, 562, 2, 1⟩, ⟨570, 570, 1, 10795⟩, ⟨571, 571, 1, 1⟩,
  ⟨573, 573, 1, -163⟩, ⟨574, 574, 1, 10792⟩, ⟨577, 577, 1, 1⟩, ⟨579, 579, 1, -195⟩,
  ⟨580, 580, 1, 69⟩, ⟨581, 581, 1, 71⟩, ⟨582, 590, 2, 1⟩, ⟨688, 688, 1, -584⟩,
  ⟨689, 689, 1, -75⟩, ⟨690, 690, 1, -584⟩, ⟨691, 691, 1, -577⟩, ⟨692, 692, 1, -59⟩,
  ⟨693, 693, 1, -58⟩, ⟨694, 694, 1, -53⟩, ⟨695, 695, 1, -576⟩, ⟨696, 696, 1, -575⟩,
  ⟨736, 736, 1, -125⟩, ⟨737, 737, 1, -629⟩, ⟨738, 738, 1, -623⟩, ⟨739, 739, 1, -619⟩,
  ⟨740, 740, 1, -79⟩, ⟨832, 833, 1, -64⟩, ⟨835, 835, 1, -48⟩, ⟨837, 837, 1, 116⟩,
  ⟨880, 882, 2, 1⟩, ⟨884, 884, 1, -187⟩, ⟨886, 886, 1, 1⟩, ⟨894, 894, 1, -835⟩,
  ⟨895, 895, 1, 116⟩, ⟨902, 902, 1, 38⟩, ⟨903, 903, 1, -720⟩, ⟨904, 906, 1, 37⟩,
  ⟨908, 908, 1, 64⟩, ⟨910, 911, 1, 63⟩, ⟨913, 929, 1, 32⟩, ⟨931, 939, 1, 32⟩, ⟨975, 975, 1, 8⟩,
  ⟨976, 976, 1, -30⟩, ⟨977, 977, 1, -25⟩, ⟨978, 978, 1, -13⟩, ⟨979, 979, 1, -6⟩,
  ⟨980, 980, 1, -9⟩, ⟨981, 981, 1, -15⟩, ⟨982, 982, 1, -22⟩, ⟨984, 1006, 2, 1⟩,
  ⟨1008, 1008, 1, -54⟩, ⟨1009, 1009, 1, -48⟩, ⟨1010, 1010, 1, -47⟩, ⟨1012, 1012, 1, -60⟩,
  ⟨1013, 1013, 1, -64⟩, ⟨1015, 1015, 1, 1⟩, ⟨1017, 1017, 1, -54⟩, ⟨1018, 1018, 1, 1⟩,
  ⟨1021, 1023, 1, -130⟩, ⟨1024, 1039, 1, 80⟩, ⟨1040, 1071, 1, 32⟩, ⟨1120, 1152, 2, 1⟩,
  ⟨1162, 1214, 2, 1⟩, ⟨1216, 1216, 1, 15⟩, ⟨1217, 1229, 2, 1⟩, ⟨1232, 1326, 2, 1⟩,
  ⟨1329, 1366, 1, 48⟩, ⟨4256, 4293, 1, 7264⟩, ⟨4295, 4295, 1, 7264⟩, ⟨4301, 4301, 1, 7264⟩,
  ⟨4348, 4348, 1, -32⟩, ⟨7680, 7828, 2, 1⟩, ⟨7835, 7835, 1, -58⟩, ⟨7840, 7934, 2, 1⟩,
  ⟨7944, 7951, 1, -8⟩, ⟨7960, 7965, 1, -8⟩, ⟨7976, 7983, 1, -8⟩, ⟨7992, 7999, 1, -8⟩,
  ⟨8008, 8013, 1, -8⟩, ⟨8025, 8031, 2, -8⟩, ⟨8040, 8047, 1, -8⟩, ⟨8049, 8049, 1, -7109⟩,
  ⟨8051, 8051, 1, -7110⟩, ⟨8053, 8053, 1, -7111⟩, ⟨8055, 8055, 1, -7112⟩, ⟨8057, 8057, 1, -7085⟩,
  ⟨8059, 8059, 1, -7086⟩, ⟨8061, 8061, 1, -7087⟩, ⟨8120, 8121, 1, -8⟩, ⟨8122, 8122, 1, -74⟩,
  ⟨8123, 8123, 1, -7183⟩, ⟨8126, 8126, 1, -7173⟩, ⟨8136, 8136, 1, -86⟩, ⟨8137, 8137, 1, -7196⟩,
  ⟨8138, 8138, 1, -86⟩, ⟨8139, 8139, 1, -7197⟩, ⟨8147, 8147, 1, -7235⟩, ⟨8152, 8153, 1, -8⟩,
  ⟨8154, 8154, 1, -100⟩, ⟨8155, 8155, 1, -7212⟩, ⟨8163, 8163, 1, -7219⟩, ⟨8168, 8169, 1, -8⟩,
  ⟨8170, 8170, 1, -112⟩, ⟨8171, 8171, 1, -7198⟩, ⟨8172, 8172, 1, -7⟩, ⟨8175, 8175, 1, -8079⟩,
  ⟨8184, 8184, 1, -128⟩, ⟨8185, 8185, 1, -7213⟩, ⟨8186, 8186, 1, -126⟩, ⟨8187, 8187, 1, -7213⟩,
  ⟨9398, 9423, 1, -9301⟩, ⟨11264, 11311, 1, 48⟩, ⟨11360, 11360, 1, 1⟩, ⟨11362, 11362, 1, -10743⟩,
  ⟨11363, 11363, 1, -3814⟩, ⟨11364, 11364, 1, -10727⟩, ⟨11367, 11371, 2, 1⟩,
  ⟨11373, 11373, 1, -10780⟩, ⟨11374, 11374, 1, -10749⟩, ⟨11375, 11375, 1, -10783⟩,
  ⟨11376, 11376, 1, -10782⟩, ⟨11378, 11378, 1, 1⟩, ⟨11381, 11381, 1, 1⟩,
  ⟨11388, 11388, 1, -11282⟩, ⟨11389, 11389, 1, -11271⟩, ⟨11390, 11391, 1, -10815⟩,
  ⟨11392, 11490, 2, 1⟩, ⟨11499, 11501, 2, 1⟩, ⟨11506, 11506, 1, 1⟩, ⟨11631, 11631, 1, -14⟩,
  ⟨42560, 42604, 2, 1⟩, ⟨42624, 42650, 2, 1⟩, ⟨42652, 42652, 1, -41554⟩,
  ⟨42653, 42653, 1, -41553⟩, ⟨42786, 42798, 2, 1⟩, ⟨42802, 42862, 2, 1⟩, ⟨42864, 42864, 1, -1⟩,
  ⟨42873, 42875, 2, 1⟩, ⟨42877, 42877, 1, -35332⟩, ⟨42878, 42886, 2, 1⟩, ⟨42891, 42891, 1, 1⟩,
  ⟨42893, 42893, 1, -42280⟩, ⟨42896, 42898, 2, 1⟩, ⟨42902, 42920, 2, 1⟩,
  ⟨42922, 42922, 1, -42308⟩, ⟨42923, 42923, 1, -42319⟩, ⟨42924, 42924, 1, -42315⟩,
  ⟨42925, 42925, 1, -42305⟩, ⟨42926, 42926, 1, -42308⟩, ⟨42928, 42928, 1, -42258⟩,
  ⟨42929, 42929, 1, -42282⟩, ⟨42930, 42930, 1, -42261⟩, ⟨42931, 42931, 1, 928⟩,
  ⟨42932, 42946, 2, 1⟩, ⟨42948, 42948, 1, -48⟩, ⟨42949, 42949, 1, -42307⟩,
  ⟨42950, 42950, 1, -35384⟩, ⟨42951, 42953, 2, 1⟩, ⟨42960, 42960, 1, 1⟩, ⟨42966, 42968, 2, 1⟩,
  ⟨42994, 42994, 1, -42895⟩, ⟨42995, 42995, 1, -42893⟩, ⟨42996, 42996, 1, -42883⟩,
  ⟨42997, 42997, 1, 1⟩, ⟨43000, 43000, 1, -42705⟩, ⟨43001, 43001, 1, -42662⟩,
  ⟨65281, 65312, 1, -65248⟩, ⟨65313, 65338, 1, -65216⟩, ⟨65339, 65374, 1, -65248⟩,
  ⟨66560, 66599, 1, 40⟩, ⟨66736, 66771, 1, 40⟩, ⟨66928, 66938, 1, 39⟩, ⟨66940, 66954, 1, 39⟩,
  ⟨66956, 66962, 1, 39⟩, ⟨66964, 66965, 1, 39⟩, ⟨67457, 67458, 1, -66737⟩,
  ⟨67459, 67459, 1, -67229⟩, ⟨67460, 67460, 1, -66795⟩, ⟨67461, 67461, 1, -66866⟩,
  ⟨67463, 67463, 1, -66788⟩, ⟨67464, 67464, 1, -23586⟩, ⟨67465, 67465, 1, -66788⟩,
  ⟨67466, 67466, 1, -66790⟩, ⟨67467, 67468, 1, -66869⟩, ⟨67469, 67469, 1, -59900⟩,
  ⟨67470, 67470, 1, -66870⟩, ⟨67471, 67471, 1, -66865⟩, ⟨67472, 67472, 1, -66791⟩,
  ⟨67473, 67473, 1, -66861⟩, ⟨67474, 67474, 1, -66864⟩, ⟨67475, 67475, 1, -66867⟩,
  ⟨67476, 67476, 1, -66809⟩, ⟨67477, 67477, 1, -67182⟩, ⟨67478, 67478, 1, -66810⟩,
  ⟨67479, 67479, 1, -66864⟩, ⟨67480, 67480, 1, -66836⟩, ⟨67481, 67482, 1, -66799⟩,
  ⟨67483, 67483, 1, -66863⟩, ⟨67484, 67484, 1, 55144⟩, ⟨67485, 67485, 1, -24591⟩,
  ⟨67486, 67486, 1, -66864⟩, ⟨67487, 67487, 1, 55142⟩, ⟨67488, 67488, 1, -66834⟩,
  ⟨67489, 67489, 1, 55141⟩, ⟨67490, 67490, 1, -67242⟩, ⟨67491, 67492, 1, -66861⟩,
  ⟨67493, 67493, 1, -67380⟩, ⟨67494, 67494, 1, -66860⟩, ⟨67495, 67495, 1, 55137⟩,
  ⟨67496, 67497, 1, -66859⟩, ⟨67498, 67498, 1, -66858⟩, ⟨67499, 67499, 1, -66819⟩,
  ⟨67500, 67500, 1, -66822⟩, ⟨67501, 67501, 1, -23622⟩, ⟨67502, 67502, 1, -66823⟩,
  ⟨67503, 67503, 1, -66855⟩, ⟨67504, 67504, 1, -56127⟩, ⟨67506, 67506, 1, -66851⟩,
  ⟨67507, 67508, 1, -66834⟩, ⟨67509, 67509, 1, -66845⟩, ⟨67510, 67512, 1, -67062⟩,
  ⟨67513, 67513, 1, 55121⟩, ⟨67514, 67514, 1, 55140⟩, ⟨68736, 68786, 1, 64⟩]

def FoldRun.holds (r : FoldRun) (code : Nat) : Bool :=
  r.first ≤ code && code ≤ r.last && (code - r.first) % r.step == 0

def foldChar (c : Char) : Char :=
  if c.toNat < 0x80 then c.toLower
  else
    match foldRuns.find? (·.holds c.toNat) with
    | some r => Char.ofNat ((c.toNat : Int) + r.offset).toNat
    | none => c

end CatalogCrawl.Url
