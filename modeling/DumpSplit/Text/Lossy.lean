/-
  Reading bytes as UTF-8 text where they may be invalid.  Every longest run of
  bytes that begins a character and cannot be completed, and every byte that
  begins none, is read as one U+FFFD.
-/
namespace DumpSplit.Text

/-- A character of which some bytes are read: its bits so far, the number of
    bytes still missing (at least one), and the range of the next byte. -/
structure Unfinished where
  bits : Nat
  missing : Nat
  low : UInt8 := 0x80
  high : UInt8 := 0xBF

/-- The character that a lead byte begins.  The narrower ranges of the second
    byte shut out overlong forms, surrogates and values above U+10FFFF. -/
def Unfinished.ofLead? (b : UInt8) : Option Unfinished :=
  if 0xC2 ≤ b && b ≤ 0xDF then some { bits := b.toNat % 32, missing := 1 }
  else if b == 0xE0 then some { bits := 0, missing := 2, low := 0xA0 }
  else if b == 0xED then some { bits := 13, missing := 2, high := 0x9F }
  else if 0xE1 ≤ b && b ≤ 0xEF then some { bits := b.toNat % 16, missing := 2 }
  else if b == 0xF0 then some { bits := 0, missing := 3, low := 0x90 }
  else if 0xF1 ≤ b && b ≤ 0xF3 then some { bits := b.toNat % 8, missing := 3 }
  else if b == 0xF4 then some { bits := 4, missing := 3, high := 0x8F }
  else none

/-- The mark that stands for bytes which are no character. -/
def replacement : Char := '\uFFFD'

/-- Reads a byte where a character begins; `done` holds the characters read so
    far, the last one first. -/
def begin (done : List Char) (b : UInt8) : List Char × Option Unfinished :=
  if b < 0x80 then (Char.ofNat b.toNat :: done, none)
  else match Unfinished.ofLead? b with
    | some p => (done, some p)
    | none => (replacement :: done, none)

/-- Reads one byte after the characters `done` and the unfinished one. -/
def advance : List Char × Option Unfinished → UInt8 → List Char × Option Unfinished
  | (done, none), b => begin done b
  | (done, some p), b =>
    if p.low ≤ b && b ≤ p.high then
      let bits := p.bits * 64 + b.toNat % 64
      if p.missing ≤ 1 then (Char.ofNat bits :: done, none)
      else (done, some { bits, missing := p.missing - 1 })
    else begin (replacement :: done) b

/-- The text that the bytes are shown as. -/
def lossy (bytes : List UInt8) : String :=
  match bytes.foldl advance ([], none) with
  | (done, none) => String.ofList done.reverse
  | (done, some _) => String.ofList (replacement :: done).reverse

end DumpSplit.Text
