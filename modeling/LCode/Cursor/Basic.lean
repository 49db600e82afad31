import LCode.Position
import LCode.Text.Bytes

/-! A cursor on one line, which counts columns in characters and its offset in bytes. -/

namespace LCode

open Text

structure Cursor where
  line : Nat
  text : List Char
  offset : Nat
  column : Nat
deriving DecidableEq, Repr

namespace Cursor

def startLine (line : Nat) (text : List Char) : Cursor := ⟨line, text, 0, 0⟩

def initial : Cursor := startLine 0 []

def advance (c : Cursor) (lexeme : List Char) : Cursor :=
  { c with offset := c.offset + byteLength lexeme, column := c.column + lexeme.length }

def position (c : Cursor) : Position := ⟨c.line, c.column⟩

def spanOf (c : Cursor) (lexeme : List Char) : Span :=
  ⟨c.line, c.column, c.column + lexeme.length⟩

def atEnd (c : Cursor) : Bool := byteLength c.text ≤ c.offset

/-- The rest of the line, if the offset is between two of its characters or at one of its ends. -/
def remainder? (c : Cursor) : Option (List Char) := dropBytes? c.offset c.text

def at? (c : Cursor) : Option (List Char) := c.remainder?.map (List.take 1)

/-- A cursor stands before a text if that text is what follows the characters it has passed. -/
def Before (c : Cursor) (rest : List Char) : Prop :=
  ∃ passed, c.text = passed ++ rest ∧ c.offset = byteLength passed ∧ c.column = passed.length

theorem startLine_before (line : Nat) (text : List Char) : (startLine line text).Before text :=
  ⟨[], rfl, rfl, rfl⟩

theorem Before.advance {c : Cursor} {lexeme rest : List Char} (h : c.Before (lexeme ++ rest)) :
    (c.advance lexeme).Before rest := by
  obtain ⟨passed, ht, ho, hc⟩ := h
  refine ⟨passed ++ lexeme, ?_, ?_, ?_⟩
  · simpa only [Cursor.advance, List.append_assoc] using ht
  · simp only [Cursor.advance, ho, byteLength_append]
  · simp only [Cursor.advance, hc, List.length_append]

theorem advance_append (c : Cursor) (xs ys : List Char) :
    (c.advance xs).advance ys = c.advance (xs ++ ys) := by
  simp only [advance, byteLength_append, List.length_append, Nat.add_assoc]

theorem Before.remainder? {c : Cursor} {rest : List Char} (h : c.Before rest) :
    c.remainder? = some rest := by
  obtain ⟨passed, ht, ho, _⟩ := h
  rw [Cursor.remainder?, ht, ho, dropBytes?_append]

end Cursor

end LCode
