import RestClient.Text.Printable

/-!
# Folded text

Names are compared in one form, without the difference of upper and lower case and with one
spelling of each character.  The tables are those of Unicode 17.
-/

namespace RestClient
namespace Folding

/-- Printable code points beyond ASCII that folded text does not hold: those that become other
characters or vanish, and a few symbols that are refused.  Each entry is a first and a last code
point and the step between those that it means; what is not printable may be among them. -/
def changed : List (Nat × Nat × Nat) :=
  [(168, 170, 2), (175, 175, 1), (178, 181, 1), (184, 186, 1), (188, 190, 1), (192, 214, 1),
    (216, 222, 1), (256, 306, 2), (307, 308, 1), (310, 310, 1), (313, 319, 2), (320, 321, 1),
    (323, 329, 2), (330, 376, 2), (377, 385, 2), (386, 390, 2), (391, 393, 2), (394, 395, 1),
    (398, 401, 1), (403, 404, 1), (406, 408, 1), (412, 413, 1), (415, 416, 1), (418, 422, 2),
    (423, 425, 2), (428, 430, 2), (431, 433, 2), (434, 435, 1), (437, 439, 2), (440, 440, 1),
    (444, 444, 1), (452, 461, 1), (463, 475, 2), (478, 494, 2), (497, 500, 1), (502, 504, 1),
    (506, 562, 2), (570, 571, 1), (573, 574, 1), (577, 579, 2), (580, 582, 1), (584, 590, 2),
    (688, 696, 1), (728, 733, 1), (736, 740, 1), (832, 833, 1), (835, 837, 1), (880, 886, 2),
    (890, 890, 1), (894, 911, 1), (913, 939, 1), (975, 982, 1), (984, 1008, 2), (1009, 1010, 1),
    (1012, 1013, 1), (1015, 1017, 2), (1018, 1018, 1), (1021, 1071, 1), (1120, 1152, 2),
    (1162, 1216, 2), (1217, 1229, 2), (1232, 1326, 2), (1329, 1366, 1), (1415, 1415, 1),
    (1653, 1656, 1), (2392, 2399, 1), (2524, 2527, 1), (2611, 2611, 1), (2614, 2614, 1),
    (2649, 2651, 1), (2654, 2654, 1), (2908, 2909, 1), (3635, 3635, 1), (3763, 3763, 1),
    (3804, 3805, 1), (3852, 3852, 1), (3907, 3907, 1), (3917, 3917, 1), (3922, 3922, 1),
    (3927, 3927, 1), (3932, 3932, 1), (3945, 3945, 1), (3955, 3957, 2), (3958, 3961, 1),
    (3969, 3969, 1), (3987, 3987, 1), (3997, 3997, 1), (4002, 4002, 1), (4007, 4007, 1),
    (4012, 4012, 1), (4025, 4025, 1), (4256, 4301, 1), (4348, 4348, 1), (5112, 5117, 1),
    (7296, 7305, 1), (7312, 7359, 1), (7468, 7470, 1), (7472, 7482, 1), (7484, 7501, 1),
    (7503, 7530, 1), (7544, 7544, 1), (7579, 7615, 1), (7680, 7828, 2), (7834, 7835, 1),
    (7838, 7934, 2), (7944, 7951, 1), (7960, 7965, 1), (7976, 7983, 1), (7992, 7999, 1),
    (8008, 8013, 1), (8025, 8031, 1), (8040, 8047, 1), (8049, 8061, 2), (8064, 8111, 1),
    (8114, 8116, 1), (8119, 8132, 1), (8135, 8143, 1), (8147, 8147, 1), (8152, 8159, 1),
    (8163, 8163, 1), (8168, 8180, 1), (8183, 8190, 1), (8209, 8209, 1), (8215, 8215, 1),
    (8228, 8230, 1), (8243, 8244, 1), (8246, 8247, 1), (8252, 8254, 2), (8263, 8265, 1),
    (8279, 8279, 1), (8304, 8348, 1), (8360, 8360, 1), (8448, 8451, 1), (8453, 8455, 1),
    (8457, 8467, 1), (8469, 8470, 1), (8473, 8477, 1), (8480, 8482, 1), (8484, 8490, 2),
    (8491, 8493, 1), (8495, 8505, 1), (8507, 8512, 1), (8517, 8521, 1), (8528, 8575, 1),
    (8579, 8579, 1), (8585, 8585, 1), (8748, 8749, 1), (8751, 8752, 1), (9001, 9002, 1),
    (9312, 9450, 1), (10764, 10764, 1), (10868, 10870, 1), (10972, 10972, 1), (11264, 11311, 1),
    (11360, 11362, 2), (11363, 11364, 1), (11367, 11373, 2), (11374, 11376, 1), (11378, 11378, 1),
    (11381, 11381, 1), (11388, 11392, 1), (11394, 11490, 2), (11499, 11501, 2), (11506, 11506, 1),
    (11631, 11631, 1), (11935, 11935, 1), (12019, 12287, 1), (12290, 12290, 1), (12342, 12344, 2),
    (12345, 12346, 1), (12443, 12444, 1), (12447, 12447, 1), (12543, 12543, 1), (12593, 12686, 1),
    (12690, 12703, 1), (12783, 12783, 1), (12800, 12871, 1), (12880, 12926, 1), (12928, 13311, 1),
    (42560, 42604, 2), (42624, 42652, 2), (42653, 42653, 1), (42786, 42798, 2), (42802, 42864, 2),
    (42873, 42877, 2), (42878, 42886, 2), (42891, 42893, 2), (42896, 42898, 2), (42902, 42922, 2),
    (42923, 42926, 1), (42928, 42932, 1), (42934, 42948, 2), (42949, 42951, 1), (42953, 42955, 2),
    (42956, 42972, 2), (42993, 42997, 1), (43000, 43001, 1), (43868, 43871, 1), (43881, 43881, 1),
    (43888, 43967, 1), (63744, 64013, 1), (64016, 64018, 2), (64021, 64030, 1), (64032, 64034, 2),
    (64037, 64038, 1), (64042, 64285, 1), (64287, 64433, 1), (64467, 64829, 1), (64848, 64911, 1),
    (64914, 64967, 1), (65008, 65020, 1), (65040, 65049, 1), (65072, 65092, 1), (65095, 65138, 1),
    (65140, 65533, 1), (66560, 66599, 1), (66736, 66771, 1), (66928, 66965, 1), (67457, 67514, 1),
    (68736, 68786, 1), (68944, 68965, 1), (71840, 71871, 1), (93760, 93791, 1), (93856, 93880, 1),
    (117974, 118009, 1), (119134, 119140, 1), (119227, 119232, 1), (119808, 120831, 1),
    (122928, 122989, 1), (125184, 125217, 1), (126464, 126651, 1), (127232, 127242, 1),
    (127248, 127278, 1), (127280, 127311, 1), (127338, 127340, 1), (127376, 127376, 1),
    (127488, 127569, 1), (130032, 130041, 1), (194560, 195101, 1)]

def isFolded (c : Char) : Bool :=
  let n := c.toNat
  !(Printable.within Printable.unprintable n ||
    changed.any fun entry => entry.1 ≤ n && n ≤ entry.2.1 && (n - entry.1) % entry.2.2 == 0)

/-- Code points of the general category Mc that do not have the property Grapheme_Extend. -/
def spacingMarks : List (Nat × Nat) :=
  [(2307, 2307), (2363, 2363), (2366, 2368), (2377, 2380), (2382, 2383), (2434, 2435), (2495, 2496),
    (2503, 2504), (2507, 2508), (2563, 2563), (2622, 2624), (2691, 2691), (2750, 2752),
    (2761, 2761), (2763, 2764), (2818, 2819), (2880, 2880), (2887, 2888), (2891, 2892),
    (3007, 3007), (3009, 3010), (3014, 3016), (3018, 3020), (3073, 3075), (3137, 3140),
    (3202, 3203), (3262, 3262), (3265, 3265), (3267, 3268), (3315, 3315), (3330, 3331),
    (3391, 3392), (3398, 3400), (3402, 3404), (3458, 3459), (3536, 3537), (3544, 3550),
    (3570, 3571), (3902, 3903), (3967, 3967), (4139, 4140), (4145, 4145), (4152, 4152),
    (4155, 4156), (4182, 4183), (4194, 4196), (4199, 4205), (4227, 4228), (4231, 4236),
    (4239, 4239), (4250, 4252), (6070, 6070), (6078, 6085), (6087, 6088), (6435, 6438),
    (6441, 6443), (6448, 6449), (6451, 6456), (6681, 6682), (6741, 6741), (6743, 6743),
    (6753, 6753), (6755, 6756), (6765, 6770), (6916, 6916), (6974, 6977), (7042, 7042),
    (7073, 7073), (7078, 7079), (7143, 7143), (7146, 7148), (7150, 7150), (7204, 7211),
    (7220, 7221), (7393, 7393), (7415, 7415), (43043, 43044), (43047, 43047), (43136, 43137),
    (43188, 43203), (43346, 43346), (43395, 43395), (43444, 43445), (43450, 43451), (43454, 43455),
    (43567, 43568), (43571, 43572), (43597, 43597), (43643, 43643), (43645, 43645), (43755, 43755),
    (43758, 43759), (43765, 43765), (44003, 44004), (44006, 44007), (44009, 44010), (44012, 44012),
    (69632, 69632), (69634, 69634), (69762, 69762), (69808, 69810), (69815, 69816), (69932, 69932),
    (69957, 69958), (70018, 70018), (70067, 70069), (70079, 70079), (70094, 70094), (70188, 70190),
    (70194, 70195), (70368, 70370), (70402, 70403), (70463, 70463), (70465, 70468), (70471, 70472),
    (70475, 70476), (70498, 70499), (70585, 70586), (70602, 70602), (70604, 70605), (70709, 70711),
    (70720, 70721), (70725, 70725), (70833, 70834), (70841, 70841), (70843, 70844), (70846, 70846),
    (70849, 70849), (71088, 71089), (71096, 71099), (71102, 71102), (71216, 71218), (71227, 71228),
    (71230, 71230), (71340, 71340), (71342, 71343), (71454, 71454), (71456, 71457), (71462, 71462),
    (71724, 71726), (71736, 71736), (71985, 71989), (71991, 71992), (72000, 72000), (72002, 72002),
    (72145, 72147), (72156, 72159), (72164, 72164), (72249, 72249), (72279, 72280), (72343, 72343),
    (72545, 72545), (72549, 72549), (72551, 72551), (72751, 72751), (72766, 72766), (72873, 72873),
    (72881, 72881), (72884, 72884), (73098, 73102), (73107, 73108), (73110, 73110), (73461, 73462),
    (73475, 73475), (73524, 73525), (73534, 73535), (90410, 90412), (94033, 94087)]

def isMark (c : Char) : Bool :=
  Printable.within Printable.graphemeExtend c.toNat || Printable.within spacingMarks c.toNat

end Folding
end RestClient
