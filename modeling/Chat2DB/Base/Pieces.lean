import Mathlib

/-! # Reading a list in pieces

A list is read from an offset on, at most so many items at a time, and the next piece
begins where the last one ended. The pieces make up the list, and each of them gets on.
-/

namespace Pieces

universe u

variable {α : Type u}

/-- One piece: what it holds, where the next one begins, and whether it is the last. -/
structure IsPiece (units : List α) (offset limit : Nat) (piece : List α) (next : Nat)
    (eof : Bool) : Prop where
  piece_eq : piece = (units.drop offset).take limit
  next_eq : next = offset + piece.length
  eof_iff : eof = true ↔ next = units.length

variable {units piece : List α} {offset limit next : Nat} {eof : Bool}

namespace IsPiece

theorem length_le (hpiece : IsPiece units offset limit piece next eof) : piece.length ≤ limit := by
  rw [hpiece.piece_eq]
  exact List.length_take_le ..

theorem next_le (hpiece : IsPiece units offset limit piece next eof)
    (hoffset : offset ≤ units.length) : next ≤ units.length := by
  rw [hpiece.next_eq, hpiece.piece_eq, List.length_take, List.length_drop]
  omega

/-- A piece that is not the last one has something in it. -/
theorem lt_next (hpiece : IsPiece units offset limit piece next false)
    (hoffset : offset ≤ units.length) (hlimit : 1 ≤ limit) : offset < next := by
  have hnot : next ≠ units.length := by
    intro hend
    have hfalse := hpiece.eof_iff.mpr hend
    cases hfalse
  have hnext := hpiece.next_eq
  rw [hpiece.piece_eq, List.length_take, List.length_drop] at hnext
  omega

theorem append_drop (hpiece : IsPiece units offset limit piece next eof) :
    piece ++ units.drop next = units.drop offset := by
  have hrest : units.drop next = (units.drop offset).drop limit := by
    rw [hpiece.next_eq, hpiece.piece_eq, List.length_take, List.length_drop, List.drop_drop]
    by_cases hlimit : limit ≤ units.length - offset
    · rw [Nat.min_eq_left hlimit]
    · rw [List.drop_eq_nil_of_le (by omega), List.drop_eq_nil_of_le (by omega)]
  rw [hrest, hpiece.piece_eq, List.take_append_drop]

/-- The last piece is the rest of the list. -/
theorem eq_drop (hpiece : IsPiece units offset limit piece next true) :
    piece = units.drop offset := by
  have hboth := hpiece.append_drop
  rw [hpiece.eof_iff.mp rfl, List.drop_length, List.append_nil] at hboth
  exact hboth

end IsPiece

end Pieces
