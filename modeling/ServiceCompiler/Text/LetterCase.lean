import ServiceCompiler.Text.Letter

namespace ServiceCompiler.Text

/-!
# Upper and lower case

The simple case maps of Unicode (version 17.0): each character has at most one image, so the length
of a text never changes.
-/

/-- The alphabets in which capitals and small letters stand apart: the first of both, and how many there
    are. -/
def alphabets : List (Nat × Nat × Nat) :=
  [(0xc0, 0xe0, 23), (0xd8, 0xf8, 7), (0x178, 0xff, 1), (0x181, 0x253, 1), (0x186, 0x254, 1),
   (0x189, 0x256, 2), (0x18e, 0x1dd, 1), (0x18f, 0x259, 1), (0x190, 0x25b, 1), (0x193, 0x260, 1),
   (0x194, 0x263, 1), (0x196, 0x269, 1), (0x197, 0x268, 1), (0x19c, 0x26f, 1), (0x19d, 0x272, 1),
   (0x19f, 0x275, 1), (0x1a6, 0x280, 1), (0x1a9, 0x283, 1), (0x1ae, 0x288, 1), (0x1b1, 0x28a, 2),
   (0x1b7, 0x292, 1), (0x1c4, 0x1c6, 1), (0x1c7, 0x1c9, 1), (0x1ca, 0x1cc, 1), (0x1f1, 0x1f3, 1),
   (0x1f6, 0x195, 1), (0x1f7, 0x1bf, 1), (0x220, 0x19e, 1), (0x23a, 0x2c65, 1), (0x23d, 0x19a, 1),
   (0x23e, 0x2c66, 1), (0x243, 0x180, 1), (0x244, 0x289, 1), (0x245, 0x28c, 1), (0x37f, 0x3f3, 1),
   (0x386, 0x3ac, 1), (0x388, 0x3ad, 3), (0x38c, 0x3cc, 1), (0x38e, 0x3cd, 2), (0x391, 0x3b1, 17),
   (0x3a3, 0x3c3, 9), (0x3cf, 0x3d7, 1), (0x3f9, 0x3f2, 1), (0x3fd, 0x37b, 3), (0x400, 0x450, 16),
   (0x410, 0x430, 32), (0x4c0, 0x4cf, 1), (0x531, 0x561, 38), (0x10a0, 0x2d00, 38),
   (0x10c7, 0x2d27, 1), (0x10cd, 0x2d2d, 1), (0x13a0, 0xab70, 80), (0x13f0, 0x13f8, 6),
   (0x1c90, 0x10d0, 43), (0x1cbd, 0x10fd, 3), (0x1f08, 0x1f00, 8), (0x1f18, 0x1f10, 6),
   (0x1f28, 0x1f20, 8), (0x1f38, 0x1f30, 8), (0x1f48, 0x1f40, 6), (0x1f59, 0x1f51, 1),
   (0x1f5b, 0x1f53, 1), (0x1f5d, 0x1f55, 1), (0x1f5f, 0x1f57, 1), (0x1f68, 0x1f60, 8),
   (0x1f88, 0x1f80, 8), (0x1f98, 0x1f90, 8), (0x1fa8, 0x1fa0, 8), (0x1fb8, 0x1fb0, 2),
   (0x1fba, 0x1f70, 2), (0x1fbc, 0x1fb3, 1), (0x1fc8, 0x1f72, 4), (0x1fcc, 0x1fc3, 1),
   (0x1fd8, 0x1fd0, 2), (0x1fda, 0x1f76, 2), (0x1fe8, 0x1fe0, 2), (0x1fea, 0x1f7a, 2),
   (0x1fec, 0x1fe5, 1), (0x1ff8, 0x1f78, 2), (0x1ffa, 0x1f7c, 2), (0x1ffc, 0x1ff3, 1),
   (0x2132, 0x214e, 1), (0x2160, 0x2170, 16), (0x24b6, 0x24d0, 26), (0x2c00, 0x2c30, 48),
   (0x2c62, 0x26b, 1), (0x2c63, 0x1d7d, 1), (0x2c64, 0x27d, 1), (0x2c6d, 0x251, 1),
   (0x2c6e, 0x271, 1), (0x2c6f, 0x250, 1), (0x2c70, 0x252, 1), (0x2c7e, 0x23f, 2),
   (0xa77d, 0x1d79, 1), (0xa78d, 0x265, 1), (0xa7aa, 0x266, 1), (0xa7ab, 0x25c, 1),
   (0xa7ac, 0x261, 1), (0xa7ad, 0x26c, 1), (0xa7ae, 0x26a, 1), (0xa7b0, 0x29e, 1),
   (0xa7b1, 0x287, 1), (0xa7b2, 0x29d, 1), (0xa7b3, 0xab53, 1), (0xa7c4, 0xa794, 1),
   (0xa7c5, 0x282, 1), (0xa7c6, 0x1d8e, 1), (0xa7cb, 0x264, 1), (0xa7dc, 0x19b, 1),
   (0xff21, 0xff41, 26), (0x10400, 0x10428, 40), (0x104b0, 0x104d8, 36), (0x10570, 0x10597, 11),
   (0x1057c, 0x105a3, 15), (0x1058c, 0x105b3, 7), (0x10594, 0x105bb, 2), (0x10c80, 0x10cc0, 51),
   (0x10d50, 0x10d70, 22), (0x118a0, 0x118c0, 32), (0x16e40, 0x16e60, 32), (0x16ea0, 0x16ebb, 25),
   (0x1e900, 0x1e922, 34)]

/-- Small letters that are not the small form of their capital. -/
def oddSmalls : List (Nat × Nat) :=
  [(0xb5, 0x39c), (0x131, 0x49), (0x17f, 0x53), (0x1c5, 0x1c4), (0x1c8, 0x1c7), (0x1cb, 0x1ca),
   (0x1f2, 0x1f1), (0x345, 0x399), (0x3c2, 0x3a3), (0x3d0, 0x392), (0x3d1, 0x398), (0x3d5, 0x3a6),
   (0x3d6, 0x3a0), (0x3f0, 0x39a), (0x3f1, 0x3a1), (0x3f5, 0x395), (0x1c80, 0x412),
   (0x1c81, 0x414), (0x1c82, 0x41e), (0x1c83, 0x421), (0x1c84, 0x422), (0x1c85, 0x422),
   (0x1c86, 0x42a), (0x1c87, 0x462), (0x1c88, 0xa64a), (0x1e9b, 0x1e60), (0x1fbe, 0x399)]

/-- Capitals that are not the capital of their small form. -/
def oddCapitals : List (Nat × Nat) :=
  [(0x130, 0x69), (0x1c5, 0x1c6), (0x1c8, 0x1c9), (0x1cb, 0x1cc), (0x1f2, 0x1f3), (0x3f4, 0x3b8),
   (0x1e9e, 0xdf), (0x2126, 0x3c9), (0x212a, 0x6b), (0x212b, 0xe5)]

/-- Small letters beyond ASCII, with the stride and the first capital of each range. -/
def raiseRanges : List (Nat × Nat × Nat × Nat) :=
  alternating.map (fun (capital, count) => (capital + 1, capital + 2 * count - 1, 2, capital))
    ++ alphabets.map (fun (capital, small, count) => (small, small + count - 1, 1, capital))
    ++ oddSmalls.map (fun (small, capital) => (small, small, 1, capital))

/-- Capital letters beyond ASCII, with the stride and the first small letter of each range. -/
def lowerRanges : List (Nat × Nat × Nat × Nat) :=
  alternating.map (fun (capital, count) => (capital, capital + 2 * (count - 1), 2, capital + 1))
    ++ alphabets.map (fun (capital, small, count) => (capital, capital + count - 1, 1, small))
    ++ oddCapitals.map (fun (capital, small) => (capital, capital, 1, small))

/-- The upper-case form of a character. -/
def toUpper (c : Char) : Char :=
  if c.toNat < 128 then (if 'a' ≤ c ∧ c ≤ 'z' then Char.ofNat (c.toNat - 32) else c)
  else ((shiftIn? raiseRanges c.toNat).map Char.ofNat).getD c

/-- The lower-case form of a character. -/
def toLower (c : Char) : Char :=
  if c.toNat < 128 then asciiLower c
  else ((shiftIn? lowerRanges c.toNat).map Char.ofNat).getD c

/-- The text in lower case. -/
def lower (s : String) : String := String.ofList (s.toList.map toLower)

/-- The text in upper case. -/
def upper (s : String) : String := String.ofList (s.toList.map toUpper)

end ServiceCompiler.Text
