import Mathlib.Data.List.Basic
import TrafficGate.Text.Split
/-!
# Pieces of a text

A text that is cut at a character falls into the pieces that it was put
together from, as long as no piece holds the character (`split_append`).
Conversely the pieces, put together again, are the text
(`intercalate_split`); none of them holds the character
(`uncut_of_mem_split`), and there is one piece more than there are cuts
(`length_split`).
-/

namespace TrafficGate

namespace Text

variable {cut : Char → Bool} {c : Char} {xs p : List Char} {ps : List (List Char)}

/-- A text without a cut is one piece. -/
theorem split_of_uncut (h : ∀ x ∈ xs, cut x = false) : split cut xs = [xs] := by
  induction xs with
  | nil => rfl
  | cons x xs ih =>
    obtain ⟨hx, hxs⟩ := List.forall_mem_cons.1 h
    simp [split, hx, ih hxs]

/-- **The first piece ends at the first cut.** -/
theorem split_append (h : ∀ x ∈ xs, cut x = false) (hc : cut c = true) (ys : List Char) :
    split cut (xs ++ c :: ys) = xs :: split cut ys := by
  induction xs with
  | nil => simp [split, hc]
  | cons x xs ih =>
    obtain ⟨hx, hxs⟩ := List.forall_mem_cons.1 h
    simp [split, hx, ih hxs]

/-- What stands before the first cut, and what stands behind it. -/
theorem cutFirst_append (h : ∀ x ∈ xs, cut x = false) (hc : cut c = true) (ys : List Char) :
    cutFirst cut (xs ++ c :: ys) = (xs, some ys) := by
  induction xs with
  | nil => simp [cutFirst, hc]
  | cons x xs ih =>
    obtain ⟨hx, hxs⟩ := List.forall_mem_cons.1 h
    simp [cutFirst, hx, ih hxs]

/-! ## One character more -/

theorem split_cons_of_cut (hc : cut c = true) : split cut (c :: xs) = [] :: split cut xs := by
  rw [split, if_pos hc]

/-- A character that does not cut belongs to the first piece. -/
theorem split_cons_of_uncut (hc : cut c = false) (h : split cut xs = p :: ps) :
    split cut (c :: xs) = (c :: p) :: ps := by
  rw [split, if_neg (Bool.eq_false_iff.1 hc), h]

/-- There is always a first piece. -/
theorem exists_split (cut : Char → Bool) (xs : List Char) : ∃ p ps, split cut xs = p :: ps := by
  induction xs with
  | nil => exact ⟨[], [], rfl⟩
  | cons c xs ih =>
    obtain ⟨p, ps, hsplit⟩ := ih
    cases hc : cut c with
    | true => exact ⟨[], split cut xs, split_cons_of_cut hc⟩
    | false => exact ⟨c :: p, ps, split_cons_of_uncut hc hsplit⟩

/-! ## What the pieces are -/

/-- There is one piece more than there are cuts. -/
theorem length_split (cut : Char → Bool) (xs : List Char) :
    (split cut xs).length = xs.countP cut + 1 := by
  induction xs with
  | nil => rfl
  | cons c xs ih =>
    cases hc : cut c with
    | true => rw [split_cons_of_cut hc, List.length_cons, ih, List.countP_cons_of_pos hc]
    | false =>
      obtain ⟨p, ps, hsplit⟩ := exists_split cut xs
      rw [split_cons_of_uncut hc hsplit, List.length_cons,
        List.countP_cons_of_neg (Bool.eq_false_iff.1 hc), ← ih, hsplit, List.length_cons]

/-- No piece holds a character that cuts. -/
theorem uncut_of_mem_split (h : p ∈ split cut xs) : ∀ x ∈ p, cut x = false := by
  induction xs generalizing p with
  | nil =>
    obtain rfl := List.mem_singleton.1 h
    exact nofun
  | cons c xs ih =>
    cases hc : cut c with
    | true =>
      rw [split_cons_of_cut hc] at h
      rcases List.mem_cons.1 h with rfl | hp
      · exact nofun
      · exact ih hp
    | false =>
      obtain ⟨q, qs, hsplit⟩ := exists_split cut xs
      rw [split_cons_of_uncut hc hsplit] at h
      rw [hsplit] at ih
      rcases List.mem_cons.1 h with rfl | hp
      · exact List.forall_mem_cons.2 ⟨hc, ih List.mem_cons_self⟩
      · exact ih (List.mem_cons_of_mem q hp)

/-- **The pieces make up the text**, with the character between them. -/
theorem intercalate_split (c : Char) (xs : List Char) :
    [c].intercalate (split (· = c) xs) = xs := by
  induction xs with
  | nil => rfl
  | cons x xs ih =>
    obtain ⟨p, ps, hsplit⟩ := exists_split (· = c) xs
    by_cases hx : x = c
    · rw [split_cons_of_cut (decide_eq_true hx), hsplit, List.intercalate_cons_cons, ← hsplit, ih,
        hx]
      rfl
    · rw [split_cons_of_uncut (decide_eq_false hx) hsplit]
      rw [hsplit] at ih
      cases ps with
      | nil =>
        rw [List.intercalate_singleton] at ih ⊢
        rw [ih]
      | cons q qs =>
        rw [List.intercalate_cons_cons] at ih ⊢
        rw [List.cons_append, List.cons_append, ih]

end Text

end TrafficGate
