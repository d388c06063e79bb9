import Lifecycle.Text.Packed

/-!
Composite characters: those that stand for a character and a mark behind it, and the syllables of the
Korean script, which are made of two or three letters.
-/

namespace Lifecycle.Text

/-- A character that stands for two others. -/
structure Composite where
  whole : Nat
  first : Nat
  second : Nat
deriving DecidableEq, Repr

/-- The composites in ascending order: how far each is from the one before, and its parts. -/
def compositeNumbers : List Nat := Packed.numbers [
  "gAcByABcByBBcByCBcByDBcByIBcByKCcDzHBcFyABcFyBBcFyCBcFyIBcJyABcJyBBcJyCBcJyICcOyDBcPyABcPyBBcPyC",
  "BcPyDBcPyIDcVyABcVyBBcVyCBcVyIBcZyBDdByABdByBBdByCBdByDBdByIBdByKCdDzHBdFyABdFyBBdFyCBdFyIBdJyAB",
  "dJyBBdJyCBdJyICdOyDBdPyABdPyBBdPyCBdPyDBdPyIDdVyABdVyBBdVyCBdVyIBdZyBCdZyIBcByEBdByEBcByGBdByGB",
  "cBzIBdBzIBcDyBBdDyBBcDyCBdDyCBcDyHBdDyHBcDyMBdDyMBcEyMBdEyMDcFyEBdFyEBcFyGBdFyGBcFyHBdFyHBcFzIB",
  "dFzIBcFyMBdFyMBcHyCBdHyCBcHyGBdHyGBcHyHBdHyHBcHzHBdHzHBcIyCBdIyCDcJyDBdJyDBcJyEBdJyEBcJyGBdJyGB",
  "cJzIBdJzIBcJyHEcKyCBdKyCBcLzHBdLzHCcMyBBdMyBBcMzHBdMzHBcMyMBdMyMFcOyBBdOyBBcOzHBdOzHBcOyMBdOyME",
  "cPyEBdPyEBcPyGBdPyGBcPyLBdPyLDcSyBBdSyBBcSzHBdSzHBcSyMBdSyMBcTyBBdTyBBcTyCBdTyCBcTzHBdTzHBcTyMB",
  "dTyMBcUzHBdUzHBcUyMBdUyMDcVyDBdVyDBcVyEBdVyEBcVyGBdVyGBcVyKBdVyKBcVyLBdVyLBcVzIBdVzIBcXyCBdXyCB",
  "cZyCBdZyCBcZyIBc0yBBd0yBBc0yHBd0yHBc0yMBd0yMbCcPy1BdPy1OcVy1BdVy13cByMBdByMBcJyMBdJyMBcPyMBdPyMB",
  "cVyMBdVyMBg2yEBh2yEBg2yBBh2yBBg2yMBh2yMBg2yABh2yACgEyEBhEyEBrGyEBrHyEBgGyEBhGyEDcHyMBdHyMBcLyMB",
  "dLyMBcPzIBdPzIBpKyEBpLyEBnXyMBuSyMBdKyMEcHyBBdHyBDcOyABdOyABgFyBBhFyBBgGyBBhGyBBgYyBBhYyBBcByPB",
  "dByPBcByRBdByRBcFyPBdFyPBcFyRBdFyRBcJyPBdJyPBcJyRBdJyRBcPyPBdPyPBcPyRBdPyRBcSyPBdSyPBcSyRBdSyRB",
  "cVyPBdVyPBcVyRBdVyRBcTzGBdTzGBcUzGBdUzGDcIyMBdIyMHcByHBdByHBcFzHBdFzHBgWyEBhWyEBgVyEBhVyEBcPyHB",
  "dPyHBrOyEBrPyEBcZyEBdZyEkSfIyBB8RyBC8VyBB8XyBB8ZyBC85yBC9FyBB9JyBB+KyB08ZyIB9FyIB9RyBB9VyBB9XyBB",
  "9ZyBB+LyB09ZyIB+FyIB95yBB+FyBB+JyBF+SyBB+SyIbMbaVyABbaVyICbaTyBEbaGyIFba0yBBbaYyABbbDyGLbaYyGbA",
  "bbYyGXbbVyABbbVyICbbTyBEbcWyIFbb0yBBbbYyABbcDyGYbdUyPBbdVyPcKbaWyGBbbWyGObaQyGBbbQyGBbaQyIBbbQyI",
  "DbaVyGBbbVyGDbgYyIBbgZyIBbaWyIBbbWyIBbaXyIBbbXyIDbaYyEBbbYyEBbaYyIBbbYyIBba4yIBbb4yIDbhIyIBbhJyI",
  "BbbNyIBbcNyIBbbDyEBbcDyEBbbDyIBbcDyIBbbDyLBbcDyLBbbHyIBbcHyIDbbLyIBbcLyIjJbrHbsTBbrHbsUBbsIbsUB",
  "brHbsVBbsKbsUe0bwVbsUCbwBbsURbwSbsUsWcjIcj2IcjQcj2DcjTcj2eXcoHcn4BcoHcoXl2c6Hc6WDc6Hcz4Bc6Hc6XcI",
  "c8Sc+XbWc+Gc94Bc+Hc94Bc+Gc+Xd2dcGdcWdYdf5dgVHdgGdgVBdgGdgWCdgGdgCBdgKdgVd5dkGdj4BdkHdj4BdkGdkXeO",
  "doZdoKCdoZdoPBdo2doKBdoZdo5sIebFebOcxAgyFgzVCgyHgzVCgyJgzVCgyLgzVCgyNgzVEgyRgzVbJgz0gzVCgz2gzVD",
  "gz4gzVBgz5gzVCg6CgzVv3cBzFBdBzFBcCyHBdCyHBcCzDBdCzDBcCzRBdCzRBgHyBBhHyBBcEyHBdEyHBcEzDBdEzDBcEzR",
  "BdEzRBcEzHBdEzHBcEzNBdEzNBiSyABiTyABiSyBBiTyBBcFzNBdFzNBcFzQBdFzQBrIyGBrJyGBcGyHBdGyHBcHyEBdHyEB",
  "cIyHBdIyHBcIzDBdIzDBcIyIBdIyIBcIzHBdIzHBcIzOBdIzOBcJzQBdJzQBgPyBBhPyBBcLyBBdLyBBcLzDBdLzDBcLzRB",
  "dLzRBcMzDBdMzDBhrWyEBhrXyEBcMzRBdMzRBcMzNBdMzNBcNyBBdNyBBcNyHBdNyHBcNzDBdNzDBcOyHBdOyHBcOzDBdOzD",
  "BcOzRBdOzRBcOzNBdOzNBgVyBBhVyBBgVyIBhVyIBkMyABkNyABkMyBBkNyBBcQyBBdQyBBcQyHBdQyHBcSyHBdSyHBcSzDB",
  "dSzDBhs0yEBhs1yEBcSzRBdSzRBcTyHBdTyHBcTzDBdTzDBk0yHBk1yHBlAyHBlByHBhtCyHBhtDyHBcUyHBdUyHBcUzDBdU",
  "zDBcUzRBdUzRBcUzNBdUzNBcVzEBdVzEBcVzQBdVzQBcVzNBdVzNBlIyBBlJyBBlKyIBlLyIBcWyDBdWyDBcWzDBdWzDBcX",
  "yABdXyABcXyBBdXyBBcXyIBdXyIBcXyHBdXyHBcXzDBdXzDBcYyHBdYyHBcYyIBdYyIBcZyHBdZyHBc0yCBd0yCBc0zDBd0",
  "zDBc0zRBd0zRBdIzRBdUyIBdXyKBdZyKCl5yHFcBzDBdBzDBcByJBdByJBgCyBBhCyBBgCyABhCyABgCyJBhCyJBgCyDBhC",
  "yDBhvAyCBhvByCBiCyBBiDyBBiCyABiDyABiCyJBiDyJBiCyDBiDyDBhvAyGBhvByGBcFzDBdFzDBcFyJBdFyJBcFyDBdFyD",
  "BgKyBBhKyBBgKyABhKyABgKyJBhKyJBgKyDBhKyDBhvYyCBhvZyCBcJyJBdJyJBcJzDBdJzDBcPzDBdPzDBcPyJBdPyJBgU",
  "yBBhUyBBgUyABhUyABgUyJBhUyJBgUyDBhUyDBhwMyCBhwNyCBnAyBBnByBBnAyABnByABnAyJBnByJBnAyDBnByDBnAzDB",
  "nBzDBcVzDBdVzDBcVyJBdVyJBnPyBBnQyBBnPyABnQyABnPyJBnQyJBnPyDBnQyDBnPzDBnQzDBcZyABdZyABcZzDBdZzDB",
  "cZyJBdZyJBcZyDBdZyDH9RyTB9RyUBhyAyABhyByABhyAyBBhyByBBhyA6CBhyB6CB8RyTB8RyUBhyIyABhyJyABhyIyBB",
  "hyJyBBhyI6CBhyJ6CB9VyTB9VyUBhyQyABhyRyABhyQyBBhyRyBD8VyTB8VyUBhyYyABhyZyABhyYyBBhyZyBD9XyTB9XyUB",
  "hzAyABhzByABhzAyBBhzByBBhzA6CBhzB6CB8XyTB8XyUBhzIyABhzJyABhzIyBBhzJyBBhzI6CBhzJ6CB9ZyTB9ZyUBhzQ",
  "yABhzRyABhzQyBBhzRyBBhzQ6CBhzR6CB8ZyTB8ZyUBhzYyABhzZyABhzYyBBhzZyBBhzY6CBhzZ6CB95yTB95yUBh6AyAB",
  "h6ByABh6AyBBh6ByBD85yTB85yUBh6IyABh6JyABh6IyBBh6JyBD+FyTB+FyUBh6QyABh6RyABh6QyBBh6RyBBh6Q6CBh6R",
  "6CC9FyUCh6ZyACh6ZyBCh6Z6CB+JyTB+JyUBh7AyABh7ByABh7AyBBh7ByBBh7A6CBh7B6CB9JyTB9JyUBh7IyABh7JyAB",
  "h7IyBBh7JyBBh7I6CBh7J6CB9RyAC9VyAC9XyAC9ZyAC95yAC+FyAC+JyAEhyA6FBhyB6FBhyC6FBhyD6FBhyE6FBhyF6FB",
  "hyG6FBhyH6FBhyI6FBhyJ6FBhyK6FBhyL6FBhyM6FBhyN6FBhyO6FBhyP6FBhzA6FBhzB6FBhzC6FBhzD6FBhzE6FBhzF6FB",
  "hzG6FBhzH6FBhzI6FBhzJ6FBhzK6FBhzL6FBhzM6FBhzN6FBhzO6FBhzP6FBh7A6FBh7B6FBh7C6FBh7D6FBh7E6FBh7F6FB",
  "h7G6FBh7H6FBh7I6FBh7J6FBh7K6FBh7L6FBh7M6FBh7N6FBh7O6FBh7P6FB9RyGB9RyEBh7Q6FB9R6FB9M6FC9R6CBh9W6F",
  "B8RyGB8RyEB8RyAC8R6FFfI6CBh7U6FB9X6FB9O6FC9X6CBh+G6FB8VyAC8XyAC8X6FBh95yABh95yBBh956CB9ZyGB9ZyEB",
  "+KyAE9Z6CB+K6CB8ZyGB8ZyEB8ZyADh-4yABh-4yBBh-46CB+FyGB+FyEB+LyAC+ByTB+ByUB+F6CB+L6CB9FyGB9FyEB9F",
  "yAC9ByUBfIyAFh726FB+J6FB+O6FC+J6CBh-W6FB85yAC9JyAC9J6Fm4imQzYBimSzYTimUzY5ioQzYBioUzYBioSzYbViqD",
  "zYFiqIzYDiqLzYYirDzYCirFzY1ir2zYDisDzYDisFzYCisIzYXb3zYCitBzYLisNzYBb2zYBb4zYBitEzYBitFzYDitSzYB",
  "itTzYDitWzYBitXzYHit0zYBit1zYDiuCzYBiuDzYDiuGzYBiuHzYbDivCzYBivIzYBivJzYBivLzYbRit2zYBit3zYBiuR",
  "zYBiuSzYHivSzYBivTzYBivUzYBivVzYdk5mcLmeZCmcNmeZCmcPmeZCmcRmeZCmcTmeZCmcVmeZCmcXmeZCmcZmeZCmc1",
  "meZCmc3meZCmc5meZCmdBmeZDmdEmeZCmdGmeZCmdImeZHmdPmeZBmdPme0CmdSmeZBmdSme0CmdVmeZBmdVme0CmdYmeZB",
  "mdYme0Cmd1meZBmd1me0XmcGmeZKme3meZOmfLmeZCmfNmeZCmfPmeZCmfRmeZCmfTmeZCmfVmeZCmfXmeZCmfZmeZCmf1",
  "meZCmf3meZCmf5meZCmgBmeZDmgEmeZCmgGmeZCmgImeZHmgPmeZBmgPme0CmgSmeZBmgSme0CmgVmeZBmgVme0CmgYmeZB",
  "mgYme0Cmg1meZBmg1me0XmfGmeZDmhPmeZBmhQmeZBmhRmeZBmhSmeZEmh3meZbvgLcboSyH1cbo0yHcvWceeZcef0Ccee1",
  "cef0PcefFcef0eDcejRcejHBcejScejHq2ce6Hcez4Bce6Hce6XbXce8Cce+JCce8Ece91Jce8Lce+CDce8Qce+JbUce+C",
  "ce+CCce+Cce9YBce+Cce+JhTcffZcff0BcffZcffQCcffZcff3h2cfnYcfnPBcfnZcfnP73cgjVcgjQr-Jcyi4cyi4Bcyi4",
  "cyjJBcyi4cyi5BcyjJcyi5Bcyi4cyjABcyjBcyi5BcyjCcyi5BcyjBcyjAdcAc7lHc7lHBc7lDc7lHBc7lJc7lH"]

/-- The composites of a list as it is written, of which the last was `before`. -/
def compositesFrom : Nat → List Nat → List Composite
  | before, step :: first :: second :: rest => ⟨before + step, first, second⟩ :: compositesFrom (before + step) rest
  | _, _ => []

def composites : List Composite := compositesFrom 0 compositeNumbers

/-! ### Syllables -/

/-- The first syllable, and the first letters of the three kinds. -/
abbrev syllableStart : Nat := 0xAC00
abbrev leadStart : Nat := 0x1100
abbrev vowelStart : Nat := 0x1161
abbrev trailStart : Nat := 0x11A7

abbrev leadCount : Nat := 19
abbrev vowelCount : Nat := 21

/-- The number of last letters, with none as one of them. -/
abbrev trailCount : Nat := 28

/-- The parts of the syllable number `s`: a syllable and its last letter, or two letters. -/
def syllableParts (s : Nat) : Nat × Nat :=
  if s % trailCount = 0 then
    (leadStart + s / (vowelCount * trailCount), vowelStart + s / trailCount % vowelCount)
  else (syllableStart + (s - s % trailCount), trailStart + s % trailCount)

/-- The syllable of two letters, or of a syllable and its last letter. -/
def syllable? (first second : Nat) : Option Nat :=
  if leadStart ≤ first ∧ first < leadStart + leadCount ∧ vowelStart ≤ second ∧ second < vowelStart + vowelCount then
    some (syllableStart + ((first - leadStart) * vowelCount + (second - vowelStart)) * trailCount)
  else if syllableStart ≤ first ∧ first < syllableStart + leadCount * vowelCount * trailCount ∧
      (first - syllableStart) % trailCount = 0 ∧ trailStart < second ∧ second < trailStart + trailCount then
    some (first + (second - trailStart))
  else none

/-! ### All composites -/

/-- The parts of a composite. -/
def parts? (c : Char) : Option (Char × Char) :=
  let n := c.toNat
  if n < 0xC0 then none
  else if syllableStart ≤ n ∧ n < syllableStart + leadCount * vowelCount * trailCount then
    let (a, b) := syllableParts (n - syllableStart)
    some (Char.ofNat a, Char.ofNat b)
  else (composites.find? (·.whole == n)).map fun p => (Char.ofNat p.first, Char.ofNat p.second)

/-- The composite of two characters. -/
def compose? (a b : Char) : Option Char :=
  if b.toNat < 0x300 then none
  else match syllable? a.toNat b.toNat with
    | some n => some (Char.ofNat n)
    | none => (composites.find? fun p => p.first == a.toNat && p.second == b.toNat).map fun p => Char.ofNat p.whole

end Lifecycle.Text
