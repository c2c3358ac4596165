/-!
# Upper case

The full upper-case form of a text. Most characters with an upper-case form have a single
one, and most of these fall into runs in which the form lies at a constant distance; a few
characters, such as the German sharp s, become several. Letters outside the tables are
their own upper case.
-/

namespace Scriptgen.Text

/-- Code points `first`, `first + step`, … up to `last`, whose upper-case form lies `offset`
further on. -/
structure UpperRun where
  first : Nat
  last : Nat
  step : Nat
  offset : Int

def UpperRun.covers (run : UpperRun) (code : Nat) : Bool :=
  run.first ≤ code && code ≤ run.last && (code - run.first) % run.step == 0

/-- The runs of characters whose upper-case form is one other character. -/
def upperRuns : List UpperRun := [
  ⟨0x61, 0x7A, 1, -32⟩, ⟨0xE0, 0xF6, 1, -32⟩, ⟨0xF8, 0xFE, 1, -32⟩, ⟨0x101, 0x12F, 2, -1⟩,
  ⟨0x133, 0x137, 2, -1⟩, ⟨0x13A, 0x148, 2, -1⟩, ⟨0x14B, 0x177, 2, -1⟩, ⟨0x17A, 0x17E, 2, -1⟩,
  ⟨0x183, 0x185, 2, -1⟩, ⟨0x1A1, 0x1A5, 2, -1⟩, ⟨0x1B4, 0x1B6, 2, -1⟩, ⟨0x1CE, 0x1DC, 2, -1⟩,
  ⟨0x1DF, 0x1EF, 2, -1⟩, ⟨0x1F9, 0x21F, 2, -1⟩, ⟨0x223, 0x233, 2, -1⟩, ⟨0x23F, 0x240, 1, 10815⟩,
  ⟨0x247, 0x24F, 2, -1⟩, ⟨0x256, 0x257, 1, -205⟩, ⟨0x28A, 0x28B, 1, -217⟩, ⟨0x371, 0x373, 2, -1⟩,
  ⟨0x37B, 0x37D, 1, 130⟩, ⟨0x3AD, 0x3AF, 1, -37⟩, ⟨0x3B1, 0x3C1, 1, -32⟩, ⟨0x3C3, 0x3CB, 1, -32⟩,
  ⟨0x3CD, 0x3CE, 1, -63⟩, ⟨0x3D9, 0x3EF, 2, -1⟩, ⟨0x430, 0x44F, 1, -32⟩, ⟨0x450, 0x45F, 1, -80⟩,
  ⟨0x461, 0x481, 2, -1⟩, ⟨0x48B, 0x4BF, 2, -1⟩, ⟨0x4C2, 0x4CE, 2, -1⟩, ⟨0x4D1, 0x52F, 2, -1⟩,
  ⟨0x561, 0x586, 1, -48⟩, ⟨0x10D0, 0x10FA, 1, 3008⟩, ⟨0x10FD, 0x10FF, 1, 3008⟩,
  ⟨0x13F8, 0x13FD, 1, -8⟩, ⟨0x1C83, 0x1C84, 1, -6242⟩, ⟨0x1E01, 0x1E95, 2, -1⟩,
  ⟨0x1EA1, 0x1EFF, 2, -1⟩, ⟨0x1F00, 0x1F07, 1, 8⟩, ⟨0x1F10, 0x1F15, 1, 8⟩, ⟨0x1F20, 0x1F27, 1, 8⟩,
  ⟨0x1F30, 0x1F37, 1, 8⟩, ⟨0x1F40, 0x1F45, 1, 8⟩, ⟨0x1F51, 0x1F57, 2, 8⟩, ⟨0x1F60, 0x1F67, 1, 8⟩,
  ⟨0x1F70, 0x1F71, 1, 74⟩, ⟨0x1F72, 0x1F75, 1, 86⟩, ⟨0x1F76, 0x1F77, 1, 100⟩,
  ⟨0x1F78, 0x1F79, 1, 128⟩, ⟨0x1F7A, 0x1F7B, 1, 112⟩, ⟨0x1F7C, 0x1F7D, 1, 126⟩,
  ⟨0x1FB0, 0x1FB1, 1, 8⟩, ⟨0x1FD0, 0x1FD1, 1, 8⟩, ⟨0x1FE0, 0x1FE1, 1, 8⟩, ⟨0x2170, 0x217F, 1, -16⟩,
  ⟨0x24D0, 0x24E9, 1, -26⟩, ⟨0x2C30, 0x2C5F, 1, -48⟩, ⟨0x2C68, 0x2C6C, 2, -1⟩,
  ⟨0x2C81, 0x2CE3, 2, -1⟩, ⟨0x2CEC, 0x2CEE, 2, -1⟩, ⟨0x2D00, 0x2D25, 1, -7264⟩,
  ⟨0xA641, 0xA66D, 2, -1⟩, ⟨0xA681, 0xA69B, 2, -1⟩, ⟨0xA723, 0xA72F, 2, -1⟩,
  ⟨0xA733, 0xA76F, 2, -1⟩, ⟨0xA77A, 0xA77C, 2, -1⟩, ⟨0xA77F, 0xA787, 2, -1⟩,
  ⟨0xA791, 0xA793, 2, -1⟩, ⟨0xA797, 0xA7A9, 2, -1⟩, ⟨0xA7B5, 0xA7C3, 2, -1⟩,
  ⟨0xA7C8, 0xA7CA, 2, -1⟩, ⟨0xA7D7, 0xA7DB, 2, -1⟩, ⟨0xAB70, 0xABBF, 1, -38864⟩,
  ⟨0xFF41, 0xFF5A, 1, -32⟩, ⟨0x10428, 0x1044F, 1, -40⟩, ⟨0x104D8, 0x104FB, 1, -40⟩,
  ⟨0x10597, 0x105A1, 1, -39⟩, ⟨0x105A3, 0x105B1, 1, -39⟩, ⟨0x105B3, 0x105B9, 1, -39⟩,
  ⟨0x105BB, 0x105BC, 1, -39⟩, ⟨0x10CC0, 0x10CF2, 1, -64⟩, ⟨0x10D70, 0x10D85, 1, -32⟩,
  ⟨0x118C0, 0x118DF, 1, -32⟩, ⟨0x16E60, 0x16E7F, 1, -32⟩, ⟨0x1E922, 0x1E943, 1, -34⟩]

/-- The characters outside of runs whose upper-case form is one other character. -/
def upperSingles : List (Nat × Nat) := [
  (0xB5, 0x39C), (0xFF, 0x178), (0x131, 0x49), (0x17F, 0x53), (0x180, 0x243), (0x188, 0x187),
  (0x18C, 0x18B), (0x192, 0x191), (0x195, 0x1F6), (0x199, 0x198), (0x19A, 0x23D), (0x19B, 0xA7DC),
  (0x19E, 0x220), (0x1A8, 0x1A7), (0x1AD, 0x1AC), (0x1B0, 0x1AF), (0x1B9, 0x1B8), (0x1BD, 0x1BC),
  (0x1BF, 0x1F7), (0x1C5, 0x1C4), (0x1C6, 0x1C4), (0x1C8, 0x1C7), (0x1C9, 0x1C7), (0x1CB, 0x1CA),
  (0x1CC, 0x1CA), (0x1DD, 0x18E), (0x1F2, 0x1F1), (0x1F3, 0x1F1), (0x1F5, 0x1F4), (0x23C, 0x23B),
  (0x242, 0x241), (0x250, 0x2C6F), (0x251, 0x2C6D), (0x252, 0x2C70), (0x253, 0x181), (0x254, 0x186),
  (0x259, 0x18F), (0x25B, 0x190), (0x25C, 0xA7AB), (0x260, 0x193), (0x261, 0xA7AC), (0x263, 0x194),
  (0x264, 0xA7CB), (0x265, 0xA78D), (0x266, 0xA7AA), (0x268, 0x197), (0x269, 0x196),
  (0x26A, 0xA7AE), (0x26B, 0x2C62), (0x26C, 0xA7AD), (0x26F, 0x19C), (0x271, 0x2C6E),
  (0x272, 0x19D), (0x275, 0x19F), (0x27D, 0x2C64), (0x280, 0x1A6), (0x282, 0xA7C5), (0x283, 0x1A9),
  (0x287, 0xA7B1), (0x288, 0x1AE), (0x289, 0x244), (0x28C, 0x245), (0x292, 0x1B7), (0x29D, 0xA7B2),
  (0x29E, 0xA7B0), (0x345, 0x399), (0x377, 0x376), (0x3AC, 0x386), (0x3C2, 0x3A3), (0x3CC, 0x38C),
  (0x3D0, 0x392), (0x3D1, 0x398), (0x3D5, 0x3A6), (0x3D6, 0x3A0), (0x3D7, 0x3CF), (0x3F0, 0x39A),
  (0x3F1, 0x3A1), (0x3F2, 0x3F9), (0x3F3, 0x37F), (0x3F5, 0x395), (0x3F8, 0x3F7), (0x3FB, 0x3FA),
  (0x4CF, 0x4C0), (0x1C80, 0x412), (0x1C81, 0x414), (0x1C82, 0x41E), (0x1C85, 0x422),
  (0x1C86, 0x42A), (0x1C87, 0x462), (0x1C88, 0xA64A), (0x1C8A, 0x1C89), (0x1D79, 0xA77D),
  (0x1D7D, 0x2C63), (0x1D8E, 0xA7C6), (0x1E9B, 0x1E60), (0x1FBE, 0x399), (0x1FE5, 0x1FEC),
  (0x214E, 0x2132), (0x2184, 0x2183), (0x2C61, 0x2C60), (0x2C65, 0x23A), (0x2C66, 0x23E),
  (0x2C73, 0x2C72), (0x2C76, 0x2C75), (0x2CF3, 0x2CF2), (0x2D27, 0x10C7), (0x2D2D, 0x10CD),
  (0xA78C, 0xA78B), (0xA794, 0xA7C4), (0xA7CD, 0xA7CC), (0xA7D1, 0xA7D0), (0xA7F6, 0xA7F5),
  (0xAB53, 0xA7B3)]

/-- The characters whose upper-case form has two or three characters. -/
def upperExpansions : List (Nat × List Nat) := [
  (0xDF, [0x53, 0x53]), (0x149, [0x2BC, 0x4E]), (0x1F0, [0x4A, 0x30C]),
  (0x390, [0x399, 0x308, 0x301]), (0x3B0, [0x3A5, 0x308, 0x301]), (0x587, [0x535, 0x552]),
  (0x1E96, [0x48, 0x331]), (0x1E97, [0x54, 0x308]), (0x1E98, [0x57, 0x30A]),
  (0x1E99, [0x59, 0x30A]), (0x1E9A, [0x41, 0x2BE]), (0x1F50, [0x3A5, 0x313]),
  (0x1F52, [0x3A5, 0x313, 0x300]), (0x1F54, [0x3A5, 0x313, 0x301]), (0x1F56, [0x3A5, 0x313, 0x342]),
  (0x1FB2, [0x1FBA, 0x399]), (0x1FB3, [0x391, 0x399]), (0x1FB4, [0x386, 0x399]),
  (0x1FB6, [0x391, 0x342]), (0x1FB7, [0x391, 0x342, 0x399]), (0x1FBC, [0x391, 0x399]),
  (0x1FC2, [0x1FCA, 0x399]), (0x1FC3, [0x397, 0x399]), (0x1FC4, [0x389, 0x399]),
  (0x1FC6, [0x397, 0x342]), (0x1FC7, [0x397, 0x342, 0x399]), (0x1FCC, [0x397, 0x399]),
  (0x1FD2, [0x399, 0x308, 0x300]), (0x1FD3, [0x399, 0x308, 0x301]), (0x1FD6, [0x399, 0x342]),
  (0x1FD7, [0x399, 0x308, 0x342]), (0x1FE2, [0x3A5, 0x308, 0x300]), (0x1FE3, [0x3A5, 0x308, 0x301]),
  (0x1FE4, [0x3A1, 0x313]), (0x1FE6, [0x3A5, 0x342]), (0x1FE7, [0x3A5, 0x308, 0x342]),
  (0x1FF2, [0x1FFA, 0x399]), (0x1FF3, [0x3A9, 0x399]), (0x1FF4, [0x38F, 0x399]),
  (0x1FF6, [0x3A9, 0x342]), (0x1FF7, [0x3A9, 0x342, 0x399]), (0x1FFC, [0x3A9, 0x399]),
  (0xFB00, [0x46, 0x46]), (0xFB01, [0x46, 0x49]), (0xFB02, [0x46, 0x4C]),
  (0xFB03, [0x46, 0x46, 0x49]), (0xFB04, [0x46, 0x46, 0x4C]), (0xFB05, [0x53, 0x54]),
  (0xFB06, [0x53, 0x54]), (0xFB13, [0x544, 0x546]), (0xFB14, [0x544, 0x535]),
  (0xFB15, [0x544, 0x53B]), (0xFB16, [0x54E, 0x546]), (0xFB17, [0x544, 0x53D])]

/-- The letters from U+1F80 on have an iota below them, which follows the upper-case form. There are
three groups of eight such forms, each for small and for capital letters. -/
def upperIota? (code : Nat) : Option (List Nat) := do
  guard (0x1F80 ≤ code)
  let first ← [0x1F08, 0x1F28, 0x1F68][(code - 0x1F80) / 16]?
  return [first + code % 8, 0x399]

def upperChar (c : Char) : List Char :=
  match (upperIota? c.toNat).or (upperExpansions.lookup c.toNat) with
  | some codes => codes.map Char.ofNat
  | none =>
    match upperSingles.lookup c.toNat, upperRuns.find? (·.covers c.toNat) with
    | some code, _ => [Char.ofNat code]
    | none, some run => [Char.ofNat (c.toNat + run.offset).toNat]
    | none, none => [c]

/-- The upper-case form of a text, character by character. -/
def upper (text : String) : String :=
  String.ofList (text.toList.flatMap upperChar)

end Scriptgen.Text
