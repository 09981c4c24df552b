import DocShell.Proofs.Literal.Brackets
import DocShell.Proofs.Literal.RoundTrip

set_option autoImplicit false

/-! # A literal is read if and only if there is room for it

A literal whose objects and arrays are nested `n` deep is read as its value with room for `n`
levels, and refused with less (`Denotes.decides`). That it is read is completeness; that it is
refused follows from the place at which it is (`Denotes.isRefused`).
-/

namespace DocShell.Literal

open Text (isBlank)

variable {n : Nat} {t : List Char}

/-- The text is read only with room for so much nesting. -/
def NeedsRoom (t : List Char) (n : Nat) : Prop :=
  ∀ room w rest, isBlank w = true → IsEnd rest → ∀ x after,
    outcome (value room (w ++ t ++ rest)) = .ok (x, after) → n ≤ room

theorem Denotes.needsRoom {v : Value} (h : Denotes t v n) : NeedsRoom t n := by
  intro room w rest hw hrest x after hread
  by_contra hroom
  obtain ⟨r, -, herror⟩ := h.isRefused room (Nat.lt_of_not_le hroom)
  rw [herror w rest hw hrest] at hread
  contradiction

/-- A literal is read as its value with room for its nesting, and refused with less. -/
theorem Denotes.decides {v : Value} (h : Denotes t v n) (room : Nat) :
    Decides (value room) t v (n ≤ room) :=
  .of_ok (fun hn => complete_value room t v n h hn) (h.needsRoom room)

/-- A text that is one literal is parsed as its value, unless it is nested too deep. -/
theorem parse_of_denotes {text : String} {v : Value} (h : Denotes text.toList v n) :
    (n ≤ 128 → parse text = .ok v) ∧ (128 < n → ∃ error, parse text = .error error) := by
  have hblank : isBlank text.toList = false := h.isFramed.isSolid.not_blank
  constructor
  · intro hn
    rw [parse_of_not_blank hblank]
    exact ⟨[], text.toList, [], n, rfl, rfl, by simp, h, hn⟩
  · intro hn
    obtain ⟨r, -, herror⟩ := h.isRefused 128 hn
    have hvalue := herror [] [] rfl isEnd_nil
    rw [List.nil_append, List.append_nil] at hvalue
    exact ⟨_, parse_of_fault hblank hvalue⟩

end DocShell.Literal
