import ServiceCompiler.Text.Letter

namespace ServiceCompiler.Text

/-!
# Printable characters

Letters, marks, numbers, punctuation and symbols of Unicode (version 17.0), and the ASCII space.
-/

/-- Stretches of printable characters beyond ASCII, where they are not letters only. -/
def printableRanges : List (Nat × Nat) :=
  rangesOf "a1 c 1 2ca 2 6 4 7 18 18d 29 32 2 3 1 37 27 6 11 16 1 c0 1 30 2 3b 2 65 e 3b 2 31 2 f 1 1c 2 1 11 20 7
   4b 1 a1 38 9 2 2 2 4 8 1 7 5 2 19 2 3 38 1 1 5 4 2 2 3 3 1 14 11 a 3 38 a 1 3 1 3 12 4 2 c 7 7 1 3 38 9 2 2 2 3 7
   3 7 5 2 12 a 2 3a 5 3 3 1 4 9 1 e 15 5 d 2f 9 1 3 1 4 7 2 9 4 2 a 7 16 2f 9 1 3 1 4 7 2 9 4 2 a 1 3 c d 5 33 1 3
   1 6 4 10 2 1a 1 3 46 1 4 6 1 1 1 8 6 a 2 3 c 3a 4 1d 4b 17 a 7 1 a 26 48 29 27 1 24 1 f 1 d 25 c6 a 179 114 20 3
   1a 66 280 1 1c 3 59 7 16 9 18 9 14 1e 2 c 5e 2 a 6 a 6 e 1 b 66 2b 75 c 4 c 4 1 3 2a 62 b 3 3e 2 41 1 1d 2 b 6 a
   6 e 2 2e 2 c 14 4d 1 a6 8 3c 3 f 3 3e 32 b 8 2b 5 216 a0 f 1 e 9 13 6 9 11 18 8 2f 11 2 2 1b 11 22 e 21 f 8c 4
   29a 16 b 15 714 2 17e 5 2d 49 2 e 18 49 7e 22 1a 1 59 c d6 1a 10 1 3f 59 67 90 56 9 30 1 726d 3 37 9 15c 14 b8 8
   dd 14 3c 3 a 6 38 8 46 8 c 6 74 b 1e 3 4e 1 b 4 21 1 37 9 e 2 a 2 67 18 1c 39 3c 4 7e 2 a 4f23 1a f 28a 20 2a 6
   33 1 13 1 4 95 be 21 7 1 7 d 2 102 3 4 2d 3 58 1 d 3 1 2f 2e e2 1c 4 24 9 1e 5 2b 24 25 4 e ca a c5 c 2dc 48 8 9
   4b 21 3 1b 5 1b 62 14 2 32 1 2 5 8 24 3 4 a 7 9 7 40 20 27 4 c 42 1d 2 1b 5 1a 7 4 c 7 14a 2e 8 a 6 26 3 1d 8 2
   d0 1f 2c 3 22 9 21 2e 8 2a 16 1a 26 1c 34 4e 4 24 9 3e 1 5 2d a 6 35 1 12 8 27 9 60 1 14 1e 2f 5d b 6 3b 5 a 6 4
   37 a 2 2 2 3 9 1 5 7 2 7 3 5 42 a 1 1 2 1 1 4 1 a 1 2 8 2 1d 5c 1 5 1e 48 8 a a6 36 2 26 22 45 b a 6 d 13 3a 6 a
   6 14 39 f 4 17 b9 3c 64 53 25 1e 1 2 2 c 9 a 50 2e 2 b 1b 48 8 53 5d a 56 8 58 22 e a 10 2d 1 e a 1d 3 20 2 16 1
   e 54 2c 3 1 1 2 1 9 8 a 10 25 1 2 1 6 7 a 36 a f6 19 7 11 1 29 3 1d 65 32 d 39b 66 6f 1 5 b1b 63 44d 16 2caa 3a
   926 a 4 51 1 a 26 6 a 46 a a 1 7 1de 3a c6 5b b4 39 7 11 40 5 b 7 4ca5 4 f60 fd 3 1b4 6 17 f 11 f 2e 2 17 9 74 3c
   f6 a 27 2 4a 8 70 15 46 7a 14 c 14 c 57 9 19 32f 124 2 2be f 5 1 f 550 7 1 11 2 7 1 2 1 5 64 1 a0 e 2 a 4 2 140
   1f 11 3a 5 1 1d0 2a d6 2b 4 1 e0 16 1d1 10 29 4c 4 a 4 2 311 44 4c 3d 1b2 2 10e 2c 4 64 c f 2 f 1 f 1 25 a ae 38
   1d d 2c 4 9 7 2 e 6 9a 3d9 3 11 3 d 3 da 6 c 4 1 f c 4 38 8 a 6 28 8 1e 2 c 4 2 e 9 27 158 8 e 2 d 3 b 3 39 1 1 4
   10 2 c 4 a 7 93 1 67 c0505 f0"

/-- Whether the character may be shown as it is. -/
def isPrintable (c : Char) : Bool :=
  if c.toNat < 128 then 32 ≤ c.toNat && c.toNat < 127 else isLetter c || inRanges printableRanges c.toNat

end ServiceCompiler.Text
