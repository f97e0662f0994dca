import ServiceCompiler.Text.Range

namespace ServiceCompiler.Text

/-!
# Letters and digits

The Unicode classes of letters, decimal digits and capital letters (version 17.0).  ASCII is decided
first, so the tables hold only what lies beyond it.
-/

/-- Letters beyond ASCII. -/
def letterRanges : List (Nat × Nat) :=
  rangesOf "aa 1 a 1 4 1 5 17 1 1f 1 1ca 4 c e 5 7 1 1 1 81 5 1 2 2 4 1 1 6 1 1 3 1 1 1 14 1 53 1 8b 8 a6 1 26 2 1 6
   29 47 1b 4 4 2d 2b 23 2 1 63 1 1 f 2 7 2 a 3 2 1 10 1 1 1e 1d 59 b 1 18 21 9 2 4 1 5 16 4 1 9 1 3 1 17 19 7 b 5
   18 1 7 10 2a 3a 36 3 1 12 1 7 a f 10 4 8 2 2 2 16 1 7 1 1 3 4 3 1 10 1 d 2 1 3 e 2 a 1 8 6 4 2 2 16 1 7 1 2 1 2 1
   2 1f 4 1 1 13 3 10 9 1 3 1 16 1 7 1 2 1 5 3 1 12 1 f 2 17 1 b 8 2 2 2 16 1 7 1 2 1 5 3 1 1e 2 1 3 f 1 11 1 1 6 3
   3 1 4 3 2 1 1 1 2 3 2 3 3 3 c 16 1 34 8 1 3 1 17 1 10 3 1 1a 3 1 2 2 2 1e 1 4 8 1 3 1 17 1 a 1 5 3 1 1e 3 1 2 f 2
   11 9 1 3 1 29 2 1 10 1 5 3 8 3 18 6 5 12 3 18 1 9 1 1 2 7 3a 30 1 2 c 7 3a 2 1 1 1 5 1 18 1 1 1 a 1 2 9 1 2 5 1 1
   15 4 20 1 3f 8 1 24 1b 5 73 2b 14 1 10 6 4 4 3 1 3 2 7 3 4 d c 1 11 26 1 1 5 1 2 2b 1 14d 1 4 2 7 1 1 1 4 2 29 1
   4 2 21 1 4 2 7 1 1 1 4 2 f 1 39 1 4 2 43 25 10 10 56 2 6 3 26c 2 11 1 1a 5 4b 6 8 7 12 d 13 e 12 e d 1 3 f 34 23
   1 4 1 43 59 7 5 2 22 1 1 5 46 a 1f 31 1e 2 5 b 2c 4 1a 36 17 9 35 52 1 5d 2f 11 8 36 1e d 2 a 2c 1a 24 29 3 a 24
   2 b 5 2b 2 3 29 4 1 6 1 2 3 1 5 c0 40 116 2 6 2 26 2 6 2 8 1 1 1 1 1 1 1 1f 2 35 1 7 1 1 3 3 1 7 3 4 2 6 4 d 5 3
   1 7 74 1 d 1 10 d 65 1 4 1 2 a 1 1 3 5 6 1 1 1 1 1 1 4 1 b 2 4 5 5 4 1 34 2 a7b e5 6 4 3 2 c 26 1 1 5 1 2 38 7 1
   10 17 9 7 1 7 1 7 1 7 1 7 1 7 1 7 1 7 50 1 1d5 2 2a 5 5 2 4 56 6 3 1 5a 1 4 5 2b 1 5e 11 20 30 10 200 19c0 40
   568d 43 2e 2 10d 3 10 a 2 14 2f 10 1f 2 46 31 9 2 67 2 52 14 11 1 3 1 4 1 17 1d 34 e 32 3e 6 3 1 1 2 b 1c a 17 19
   1d 7 2f 1c 1 10 5 1 a a 5 1 29 17 3 1 8 14 17 3 1 3 32 1 1 3 2 2 5 2 1 1 1 18 3 2 b 7 3 c 6 2 6 2 6 9 7 1 7 1 2b
   1 e 6 73 1d 2ba4 c 17 4 31 2104 16e 2 6a 26 7 c 5 5 1 1 a 1 d 1 5 1 1 1 2 1 2 1 6c 21 16b 12 40 2 36 28 c 74 5 1
   87 24 1a 6 1a b 59 3 6 2 6 2 6 2 3 23 c 1 1a 1 13 1 2 1 f 2 e 22 7b 185 1d 3 31 2f 20 d 14 1 8 6 26 a 1e 2 24 4 8
   30 9e 12 24 4 24 4 28 8 34 c b 1 f 1 7 1 2 1 b 1 f 1 7 1 2 3 34 c 137 9 16 a 8 18 6 1 2a 1 9 45 6 2 1 1 2c 1 2 3
   1 2 17 a 17 9 1f 41 13 1 2 a 16 a 1a 6 1a 26 38 6 2 40 1 f 4 1 3 1 1d 2a 1d 3 1d 23 8 1 1c 1b 36 a 16 a 13 d 12
   6e 49 37 33 d 33 d 24 26 1c 9 17 fa 2a 6 2 10 6 38 1d a 1 8 16 2a 12 2e 15 1b 17 c 35 39 2 2 1 d 2d 20 19 1a 24
   1d 1 2 1 8 23 3 1 c 30 e 4 15 1 1 1 23 12 1 19 13 2 3f 7 1 1 1 4 1 f 1 a 7 2f 26 8 2 2 2 16 1 7 1 2 1 5 3 1 12 1
   c 5 1e a 1 1 2 1 1 26 1 1 19 1 1 1 2c 35 12 4 14 3 1e 30 14 2 1 1 b8 2f 29 4 24 30 14 1 3b 2b d 1 47 1b 25 7 b9
   2c 74 40 1f 8 2 1 2 8 1 2 1 18 f 1 1 1 5e 8 2 27 10 1 1 1 1c 1 a 28 7 1 15 1 b 2e 13 1 12 49 c7 21 1f 9 1 25 11 1
   31 1e 70 7 1 2 1 26 15 1 19 6 1 2 1 20 e 1 17 2c 104 13 f 1 1 d 1 22 7c 1 4f 39a e6 c4 a4c 61 f 430 11 6 19 f9b 5
   247 1ab9 1e 6e2 239 7 1f 11 4f 11 1e 12 30 10 4 1f 15 5 13 1b0 2d d3 40 20 19 2 19 2c 4b 5 1 42 d 40 2 1 1 e 2 c
   1cd6 29 20 61 73 21fd 4 1 7 1 2 1 123 f 1 1d 3 2 1 e 4 8 18c 904 6b 5 d 3 9 7 a 1766 55 1 47 1 2 2 1 2 2 2 4 1 c
   1 1 1 7 1 41 1 4 2 8 1 7 1 1c 1 4 1 5 1 1 3 7 1 154 2 19 1 19 1 1f 1 19 1 1f 1 19 1 1f 1 19 1 1f 1 19 1 8 734 1f
   6 6 105 3e 92 2d a 7 10 1 141 1e 12 2c 1e4 1c e4 1e 2 1 cf 1f 1 3 1 2 1 7 2 5 9 2 e0 7 1 4 1 2 1 f 1 c5 3b 44 7 1
   4b4 4 1 1b 1 2 1 1 2 1 1 a 1 4 1 1 1 1 6 1 4 1 1 1 1 1 1 3 1 2 1 1 2 1 1 1 1 1 1 1 1 1 1 2 1 1 2 4 1 7 1 4 1 4 1
   1 1 a 1 11 5 3 1 5 1 11 1144 a6e0 20 111e 2 168e 2 1d31 f 26e 9a2 21e 5e2 134b 5 212a"

/-- Decimal digits beyond ASCII. -/
def digitRanges : List (Nat × Nat) :=
  rangesOf "660 a 86 a c6 a 19c a 76 a 76 a 76 a 76 a 76 a 76 a 76 a 76 a 76 a 60 a 76 a 46 a 116 a 46 a 746 a 26 a
   12c a 80 a a6 a 6 a b6 a 56 a 86 a 6 a 89c6 a 2a6 a 26 a c6 a 16 a 56 a 196 a 5316 a 586 a 886 a 6 a 31c a 80 a
   3c a 90 a 116 a 156 a 76 a 176 a 66 a 6 14 4c a 1a6 a 66 a 296 a 56 a f6 a 46 a 36 a 166 a 41d6 a 926 a 56 a 86 a
   216 a 5f76 a ad4 32 940 a 1a6 a 1f6 a f7 a 355 a 1296 a"

/-- The alphabets in which capitals and small letters alternate: the first capital, and how many there
    are. -/
def alternating : List (Nat × Nat) :=
  [(0x100, 24), (0x132, 3), (0x139, 8), (0x14a, 23), (0x179, 3), (0x182, 2), (0x187, 1),
   (0x18b, 1), (0x191, 1), (0x198, 1), (0x1a0, 3), (0x1a7, 1), (0x1ac, 1), (0x1af, 1), (0x1b3, 2),
   (0x1b8, 1), (0x1bc, 1), (0x1cd, 8), (0x1de, 9), (0x1f4, 1), (0x1f8, 20), (0x222, 9), (0x23b, 1),
   (0x241, 1), (0x246, 5), (0x370, 2), (0x376, 1), (0x3d8, 12), (0x3f7, 1), (0x3fa, 1),
   (0x460, 17), (0x48a, 27), (0x4c1, 7), (0x4d0, 48), (0x1c89, 1), (0x1e00, 75), (0x1ea0, 48),
   (0x2183, 1), (0x2c60, 1), (0x2c67, 3), (0x2c72, 1), (0x2c75, 1), (0x2c80, 50), (0x2ceb, 2),
   (0x2cf2, 1), (0xa640, 23), (0xa680, 14), (0xa722, 7), (0xa732, 31), (0xa779, 2), (0xa77e, 5),
   (0xa78b, 1), (0xa790, 2), (0xa796, 10), (0xa7b4, 8), (0xa7c7, 2), (0xa7cc, 8), (0xa7f5, 1)]

/-- The capital letters beyond ASCII in other alphabets. -/
def capitalRanges : List (Nat × Nat) :=
  rangesOf "c0 17 1 7 51 1 47 1 8 1 4 1 2 2 3 3 2 2 1 2 4 2 1 1 6 1 2 1 4 1 2 2 4 1 c 1 2 1 2 1 26 1 4 2 28 1 19 1 2
   2 4 3 139 1 6 1 1 3 1 1 1 2 1 11 1 9 23 1 2 3 1f 1 4 1 3 33 90 1 70 26 b49 26 1 1 5 1 2d2 56 89a 2b 2 3 1de 1 69
   8 8 6 a 8 8 8 8 6 b 1 1 1 1 1 1 1 8 8 48 4 c 4 c 4 c 5 b 4 106 1 4 1 3 3 2 3 2 1 3 5 6 1 1 1 1 1 1 4 2 4 a 2 5 1
   aba 30 32 3 8 4 d 2 7afd 1 f 1 1c 5 1 4 10 3 4 1 10 1 5744 1a 4c5 28 88 24 9c b 1 f 1 7 1 2 6ea 33 9d 16 b3a 20
   5580 20 40 19 6547 1a 1a 1a 1a 1a 1a 1 1 2 2 1 2 2 2 4 1 8 1a 1a 1a 2 1 4 2 8 1 7 1b 2 1 4 1 5 1 1 3 7 1b 1a 1a
   1a 1a 1a 1a 1a 1a 1a 1a 1a 1e 19 21 19 21 19 21 19 21 19 21 1 1135 22"

/-- Whether the character is a letter of any alphabet. -/
def isLetter (c : Char) : Bool :=
  isAsciiLetter c || (128 ≤ c.toNat && inRanges letterRanges c.toNat)

/-- Whether the character is a decimal digit of any script. -/
def isDecimalDigit (c : Char) : Bool :=
  isDigit c || (128 ≤ c.toNat && inRanges digitRanges c.toNat)

def isCapital (c : Char) : Bool :=
  ('A' ≤ c && c ≤ 'Z') || (128 ≤ c.toNat && (inRanges capitalRanges c.toNat || inAlternating alternating c.toNat))

end ServiceCompiler.Text
