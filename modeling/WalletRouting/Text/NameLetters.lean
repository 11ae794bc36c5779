import WalletRouting.Text.Character

/-! # Characters of international names

What the names of hosts may hold beside ASCII: the letters, marks and digits of Unicode 14 that no change of case
or form turns into others. Capitals are left out of account, for names are in small letters, and so is what is not
assigned.
-/
namespace WalletRouting
set_option autoImplicit false

namespace Text

def nameRuns : List Nat :=
  [45, 46, 48, 58, 97, 123, 223, 247, 248, 307, 309, 320, 322, 329, 331, 383, 384, 454, 462, 499, 501, 688, 697, 706,
   710, 722, 748, 749, 750, 751, 768, 832, 834, 835, 838, 847, 848, 884, 887, 890, 891, 894, 912, 976, 983, 1008,
   1011, 1013, 1016, 1154, 1155, 1160, 1163, 1370, 1376, 1415, 1416, 1417, 1425, 1470, 1471, 1472, 1473, 1475, 1476,
   1478, 1479, 1523, 1552, 1563, 1568, 1600, 1601, 1632, 1646, 1653, 1657, 1748, 1749, 1757, 1759, 1769, 1770, 1776,
   1786, 1792, 1808, 2038, 2045, 2046, 2048, 2096, 2112, 2142, 2144, 2184, 2185, 2192, 2200, 2274, 2275, 2392, 2400,
   2404, 2406, 2416, 2417, 2524, 2528, 2546, 2556, 2557, 2558, 2611, 2613, 2614, 2616, 2649, 2652, 2654, 2662, 2678,
   2689, 2800, 2809, 2908, 2911, 2928, 2929, 2930, 2946, 3056, 3072, 3191, 3200, 3204, 3205, 3407, 3412, 3416, 3423,
   3440, 3450, 3572, 3585, 3635, 3636, 3647, 3648, 3663, 3664, 3674, 3713, 3763, 3764, 3804, 3806, 3841, 3851, 3852,
   3864, 3866, 3872, 3882, 3893, 3894, 3895, 3896, 3897, 3898, 3902, 3907, 3908, 3917, 3918, 3922, 3923, 3927, 3928,
   3932, 3933, 3945, 3946, 3955, 3956, 3957, 3962, 3969, 3970, 3973, 3974, 3987, 3988, 3997, 3998, 4002, 4003, 4007,
   4008, 4012, 4013, 4025, 4026, 4030, 4038, 4039, 4096, 4170, 4176, 4254, 4304, 4347, 4349, 4352, 4608, 4960, 4992,
   5008, 5121, 5741, 5743, 5760, 5761, 5787, 5792, 5867, 5873, 5941, 5952, 6068, 6070, 6100, 6103, 6104, 6108, 6128,
   6160, 6464, 6470, 6618, 6656, 6686, 6688, 6816, 6823, 6824, 6832, 6846, 6847, 7002, 7019, 7028, 7040, 7164, 7168,
   7227, 7232, 7294, 7376, 7379, 7380, 7468, 7471, 7472, 7483, 7484, 7502, 7503, 7531, 7544, 7545, 7579, 7616, 7834,
   7836, 8049, 8050, 8051, 8052, 8053, 8054, 8055, 8056, 8057, 8058, 8059, 8060, 8061, 8112, 8114, 8118, 8119, 8134,
   8135, 8144, 8147, 8150, 8157, 8160, 8163, 8164, 8173, 8182, 8183, 8526, 8527, 8580, 8581, 11312, 11388, 11393,
   11493, 11500, 11513, 11520, 11631, 11647, 11776, 11823, 11824, 12293, 12296, 12330, 12334, 12348, 12349, 12353,
   12443, 12445, 12447, 12449, 12539, 12540, 12543, 12549, 12593, 12704, 12736, 12784, 12800, 13312, 19904, 19968,
   42128, 42192, 42238, 42240, 42509, 42512, 42608, 42612, 42622, 42623, 42652, 42654, 42726, 42736, 42738, 42775,
   42784, 42787, 42864, 42865, 42889, 42892, 42994, 42998, 43000, 43002, 43048, 43052, 43056, 43072, 43124, 43136,
   43214, 43216, 43256, 43259, 43260, 43261, 43310, 43312, 43359, 43392, 43457, 43471, 43486, 43488, 43612, 43616,
   43639, 43642, 43742, 43744, 43760, 43762, 43867, 43872, 43881, 43968, 44011, 44012, 55216, 64014, 64016, 64017,
   64018, 64019, 64021, 64031, 64032, 64033, 64034, 64035, 64037, 64039, 64042, 64286, 64287, 65056, 65072, 65139,
   65140, 65536, 65792, 66045, 66273, 66304, 66336, 66349, 66369, 66370, 66378, 66384, 66463, 66464, 66512, 66600,
   66927, 66967, 67457, 67584, 67671, 67680, 67703, 67712, 67751, 67808, 67835, 67840, 67862, 67872, 67903, 67968,
   68028, 68030, 68032, 68096, 68160, 68192, 68221, 68224, 68253, 68288, 68296, 68297, 68331, 68352, 68409, 68416,
   68440, 68448, 68472, 68480, 68505, 68608, 68858, 68864, 69216, 69248, 69293, 69296, 69405, 69415, 69457, 69488,
   69510, 69552, 69573, 69600, 69703, 69734, 69819, 69826, 69837, 69840, 69952, 69956, 70004, 70006, 70085, 70089,
   70093, 70094, 70107, 70108, 70109, 70144, 70200, 70206, 70313, 70320, 70731, 70736, 70746, 70750, 70854, 70855,
   71105, 71128, 71233, 71236, 71264, 71296, 71353, 71360, 71482, 71488, 71739, 71872, 71914, 71935, 72004, 72016,
   72162, 72163, 72255, 72263, 72346, 72349, 72350, 72368, 72769, 72784, 72794, 72818, 73463, 73648, 73664, 73728,
   74752, 74880, 77809, 77824, 78896, 82944, 92782, 92784, 92917, 92928, 92983, 92992, 92996, 93008, 93019, 93027,
   93824, 93952, 94178, 94179, 113820, 113821, 113823, 118528, 118608, 121344, 121399, 121403, 121453, 121461,
   121462, 121476, 121477, 121499, 123215, 123536, 123647, 124896, 125127, 125136, 125278, 131072, 194560, 196608,
   917505]

/-- Whether a name may hold the character whatever stands beside it. -/
def isNameCharacter (point : Nat) : Bool := inRuns nameRuns point

/-- Among characters of names, the marks that stand on another character. -/
def markRuns : List Nat :=
  [768, 881, 1155, 1163, 1425, 1488, 1552, 1568, 1611, 1646, 1648, 1649, 1750, 1765, 1767, 1774, 1809, 1810, 1840,
   1869, 1958, 1969, 2027, 2036, 2045, 2048, 2070, 2074, 2075, 2084, 2085, 2088, 2089, 2112, 2137, 2144, 2200, 2208,
   2250, 2308, 2362, 2365, 2366, 2384, 2385, 2400, 2402, 2406, 2433, 2437, 2492, 2493, 2494, 2510, 2519, 2528, 2530,
   2534, 2558, 2565, 2620, 2652, 2672, 2674, 2677, 2693, 2748, 2749, 2750, 2768, 2786, 2790, 2810, 2821, 2876, 2877,
   2878, 2911, 2914, 2918, 2946, 2947, 3006, 3024, 3031, 3046, 3072, 3077, 3132, 3133, 3134, 3160, 3170, 3174, 3201,
   3205, 3260, 3261, 3262, 3293, 3298, 3302, 3328, 3332, 3387, 3389, 3390, 3406, 3415, 3423, 3426, 3430, 3457, 3461,
   3530, 3558, 3570, 3585, 3633, 3634, 3636, 3648, 3655, 3664, 3761, 3762, 3764, 3773, 3784, 3792, 3864, 3872, 3893,
   3904, 3953, 3976, 3981, 4096, 4139, 4159, 4182, 4186, 4190, 4193, 4194, 4197, 4199, 4206, 4209, 4213, 4226, 4238,
   4239, 4240, 4250, 4304, 4957, 4992, 5906, 5919, 5938, 5952, 5970, 5984, 6002, 6016, 6070, 6103, 6109, 6112, 6277,
   6279, 6313, 6314, 6432, 6470, 6679, 6688, 6741, 6784, 6832, 6917, 6964, 6981, 7019, 7043, 7073, 7086, 7142, 7168,
   7204, 7232, 7376, 7401, 7405, 7406, 7412, 7413, 7415, 7418, 7616, 7681, 11503, 11507, 11647, 11648, 11744, 11823,
   12330, 12348, 12441, 12445, 42607, 42623, 42654, 42656, 42736, 42775, 43010, 43011, 43014, 43015, 43019, 43020,
   43043, 43072, 43136, 43138, 43188, 43216, 43232, 43250, 43263, 43264, 43302, 43312, 43335, 43396, 43443, 43471,
   43493, 43494, 43561, 43584, 43587, 43588, 43596, 43600, 43643, 43646, 43696, 43697, 43698, 43701, 43703, 43705,
   43710, 43712, 43713, 43714, 43755, 43762, 43765, 43777, 44003, 44016, 64286, 65139, 66045, 66176, 66272, 66304,
   66422, 66432, 68097, 68112, 68152, 68192, 68325, 68352, 68900, 68912, 69291, 69296, 69446, 69488, 69506, 69552,
   69632, 69635, 69688, 69734, 69744, 69745, 69747, 69749, 69759, 69763, 69808, 69840, 69888, 69891, 69927, 69942,
   69957, 69959, 70003, 70006, 70016, 70019, 70067, 70081, 70089, 70096, 70188, 70272, 70367, 70384, 70400, 70405,
   70459, 70461, 70462, 70480, 70487, 70493, 70498, 70656, 70709, 70727, 70750, 70751, 70832, 70852, 71087, 71128,
   71132, 71168, 71216, 71236, 71339, 71352, 71453, 71472, 71724, 71872, 71984, 71999, 72000, 72001, 72002, 72016,
   72145, 72161, 72164, 72192, 72193, 72203, 72243, 72250, 72251, 72272, 72273, 72284, 72330, 72349, 72751, 72768,
   72850, 72960, 73009, 73030, 73031, 73040, 73098, 73112, 73459, 73648, 92912, 92928, 92976, 92992, 94031, 94032,
   94033, 94099, 94180, 94208, 113821, 122624, 122880, 123136, 123184, 123191, 123566, 123584, 123628, 123632,
   125136, 125218, 125252, 125259]

def isMark (point : Nat) : Bool := inRuns markRuns point

/-- Among characters of names, those that are written from right to left. -/
def rightToLeftRuns : List Nat :=
  [1488, 1552, 1568, 1611, 1646, 1648, 1649, 1750, 1765, 1767, 1774, 1809, 1810, 1840, 1869, 1958, 1969, 2027, 2036,
   2045, 2048, 2070, 2074, 2075, 2084, 2085, 2088, 2089, 2112, 2137, 2144, 2200, 2208, 2250, 65139, 65536, 67584,
   68097, 68112, 68152, 68192, 68325, 68352, 68900, 69248, 69291, 69296, 69446, 69488, 69506, 69552, 69632, 124928,
   125136, 125218, 125252, 125259, 131072]

def isRightToLeft (point : Nat) : Bool := inRuns rightToLeftRuns point

/-- For each mark the characters of names that become another character together with it. -/
def compositions : List (Nat × List Nat) :=
  [(768, [97, 101, 105, 110, 111, 117, 119, 121, 226, 234, 244, 252, 259, 275, 333, 417, 432, 945, 949, 951, 953,
   959, 965, 969, 970, 971, 1077, 1080, 7936, 7937, 7952, 7953, 7968, 7969, 7984, 7985, 8000, 8001, 8016, 8017,
   8032, 8033]), (769, [97, 99, 101, 103, 105, 107, 108, 109, 110, 111, 112, 114, 115, 117, 119, 121, 122, 226, 229,
   230, 231, 234, 239, 244, 245, 248, 252, 259, 275, 333, 361, 417, 432, 945, 949, 951, 953, 959, 965, 969, 970,
   971, 1075, 1082, 7936, 7937, 7952, 7953, 7968, 7969, 7984, 7985, 8000, 8001, 8016, 8017, 8032, 8033]), (770, [97,
   99, 101, 103, 104, 105, 106, 111, 115, 117, 119, 121, 122, 7841, 7865, 7885]), (771, [97, 101, 105, 110, 111,
   117, 118, 121, 226, 234, 244, 259, 417, 432]), (772, [97, 101, 103, 105, 111, 117, 121, 228, 230, 245, 246, 252,
   491, 551, 559, 945, 953, 965, 1080, 1091, 7735, 7771]), (774, [97, 101, 103, 105, 111, 117, 553, 945, 953, 965,
   1072, 1077, 1078, 1080, 1091, 7841]), (775, [97, 98, 99, 100, 101, 102, 103, 104, 109, 110, 111, 112, 114, 115,
   116, 119, 120, 121, 122, 347, 353, 7779]), (776, [97, 101, 104, 105, 111, 116, 117, 119, 120, 121, 245, 363, 953,
   965, 1072, 1077, 1078, 1079, 1080, 1086, 1091, 1095, 1099, 1101, 1110, 1241, 1257]), (777, [97, 101, 105, 111,
   117, 121, 226, 234, 244, 259, 417, 432]), (778, [97, 117, 119, 121]), (779, [111, 117, 1091]), (780, [97, 99,
   100, 101, 103, 104, 105, 106, 107, 108, 110, 111, 114, 115, 116, 117, 122, 252, 658]), (783, [97, 101, 105, 111,
   114, 117, 1141]), (785, [97, 101, 105, 111, 114, 117]), (787, [945, 949, 951, 953, 959, 961, 965, 969]), (788,
   [945, 949, 951, 953, 959, 961, 965, 969]), (795, [111, 117]), (803, [97, 98, 100, 101, 104, 105, 107, 108, 109,
   110, 111, 114, 115, 116, 117, 118, 119, 121, 122, 417, 432]), (804, [117]), (805, [97]), (806, [115, 116]), (807,
   [99, 100, 101, 103, 104, 107, 108, 110, 114, 115, 116]), (808, [97, 101, 105, 111, 117]), (813, [100, 101, 108,
   110, 116, 117]), (814, [104]), (816, [101, 105, 117]), (817, [98, 100, 104, 107, 108, 110, 114, 116, 122]), (834,
   [945, 951, 953, 965, 969, 970, 971, 7936, 7937, 7968, 7969, 7984, 7985, 8016, 8017, 8032, 8033]), (1619, [1575]),
   (1620, [1575, 1608, 1610, 1729, 1746, 1749]), (1621, [1575]), (2364, [2344, 2352, 2355]), (2494, [2503]), (2519,
   [2503]), (2878, [2887]), (2902, [2887]), (2903, [2887]), (3006, [3014, 3015]), (3031, [2962, 3014]), (3158,
   [3142]), (3266, [3270]), (3285, [3263, 3270, 3274]), (3286, [3270]), (3390, [3398, 3399]), (3415, [3398]), (3530,
   [3545, 3548]), (3535, [3545]), (3551, [3545]), (4142, [4133]), (6965, [6917, 6919, 6921, 6923, 6925, 6929, 6970,
   6972, 6974, 6975, 6978]), (12441, [12358, 12363, 12365, 12367, 12369, 12371, 12373, 12375, 12377, 12379, 12381,
   12383, 12385, 12388, 12390, 12392, 12399, 12402, 12405, 12408, 12411, 12445, 12454, 12459, 12461, 12463, 12465,
   12467, 12469, 12471, 12473, 12475, 12477, 12479, 12481, 12484, 12486, 12488, 12495, 12498, 12501, 12504, 12507,
   12527, 12528, 12529, 12530, 12541]), (12442, [12399, 12402, 12405, 12408, 12411, 12495, 12498, 12501, 12504,
   12507]), (69818, [69785, 69787, 69797]), (69927, [69937, 69938]), (70462, [70471]), (70487, [70471]), (70832,
   [70841]), (70842, [70841]), (70845, [70841]), (71087, [71096, 71097]), (71984, [71989])]

/-- Whether one character stands for the two. -/
def composes (first mark : Nat) : Bool := compositions.any fun c => c.1 = mark && c.2.contains first

end Text

end WalletRouting
