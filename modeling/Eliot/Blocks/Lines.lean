import Eliot.Text.Scalars

namespace Blocks
open Text List

structure Line where
  body : Text
  start : Nat
  stop : Nat
  charStart : Nat
  charStop : Nat

def isLineEnd (unit : Nat) : Bool := unit == 10 || unit == 13

def lineEnd : Text → Text
  | [] => []
  | 13 :: 10 :: _ => [13, 10]
  | unit :: _ => [unit]

def bodyOf (text : Text) : Text := text.takeWhile (!isLineEnd ·)

def firstLine (text : Text) : Text := bodyOf text ++ lineEnd (text.dropWhile (!isLineEnd ·))

theorem lineEnd_front (text : Text) : lineEnd text <+: text := by
  match text with
  | [] => exact nil_prefix
  | [unit] =>
    simp [lineEnd]
  | unit :: next :: rest =>
    unfold lineEnd
    split
    · exact nil_prefix
    · rename_i same
      cases same
      exact ⟨rest, rfl⟩
    · rename_i same
      cases same
      exact ⟨next :: rest, rfl⟩

theorem lineEnd_filled {text : Text} (filled : text ≠ []) : lineEnd text ≠ [] := by
  unfold lineEnd
  split
  · exact absurd rfl filled
  · simp
  · simp

theorem firstLine_prefix (text : Text) : firstLine text <+: text := by
  have whole : bodyOf text ++ text.dropWhile (!isLineEnd ·) = text := takeWhile_append_dropWhile
  conv_rhs => rw [← whole]
  exact (prefix_append_right_inj _).mpr (lineEnd_front _)

theorem firstLine_filled {text : Text} (filled : text ≠ []) : firstLine text ≠ [] := by
  have whole : bodyOf text ++ text.dropWhile (!isLineEnd ·) = text := takeWhile_append_dropWhile
  rw [firstLine]
  intro nothing
  obtain ⟨body, ending⟩ := append_eq_nil_iff.mp nothing
  rw [body, nil_append] at whole
  rw [whole] at ending
  exact lineEnd_filled filled ending

def linesFrom (charStart start : Nat) (text : Text) : List Line :=
  if _filled : text = [] then []
  else
    let raw := firstLine text
    let stop := start + (encode raw).length
    ⟨bodyOf text, start, stop, charStart, charStart + raw.length⟩ ::
      linesFrom (charStart + raw.length) stop (text.drop raw.length)
termination_by text.length
decreasing_by
  have filled := length_pos_iff.mpr (firstLine_filled _filled)
  have fits := length_pos_iff.mpr _filled
  rw [length_drop]
  omega

def lines (text : Text) : List Line := linesFrom 0 0 text

end Blocks
