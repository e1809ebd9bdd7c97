/-
CaptureSplit.Proofs.Splitting — lists that are split at a separator.

A list is cut in one way only at the first separator and in one way only at
the last (`append_cons_inj_first`, `append_cons_inj_last`). Elements that
are no separators, put behind a list, lengthen the last of its parts
(`exists_splitOn_append`); a separator behind each of several parts gives
the parts back, and an empty one at the end (`splitOn_flatMap_append`). No
part holds the separator (`notMem_of_mem_splitOn`), and with a separator between
each two the parts are the list again (`splitOn_eq_iff`).

What a recursion over a list finds at the head, or else behind a head that will
do, is found at one place (`exists_first_iff`).
-/

namespace CaptureSplit.Splitting

variable {α : Type} [BEq α] [LawfulBEq α] {a : α}

/-- The first separator of a list is at one place. -/
theorem append_cons_inj_first {xs ys zs ws : List α} (hx : a ∉ xs) (hz : a ∉ zs)
    (h : xs ++ a :: ys = zs ++ a :: ws) : xs = zs ∧ ys = ws := by
  have hsplit := congrArg (List.splitOn a) h
  rw [List.splitOn_append_cons_self_of_not_mem hx, List.splitOn_append_cons_self_of_not_mem hz]
    at hsplit
  obtain ⟨rfl, -⟩ := List.cons.inj hsplit
  exact ⟨rfl, List.cons.inj (List.append_cancel_left h) |>.2⟩

/-- The last separator of a list is at one place. -/
theorem append_cons_inj_last {xs ys zs ws : List α} (hy : a ∉ ys) (hw : a ∉ ws)
    (h : xs ++ a :: ys = zs ++ a :: ws) : xs = zs ∧ ys = ws := by
  have hrev : ys.reverse ++ a :: xs.reverse = ws.reverse ++ a :: zs.reverse := by
    simpa using congrArg List.reverse h
  have hboth := append_cons_inj_first (by simpa using hy) (by simpa using hw) hrev
  simpa [and_comm] using hboth

/-- What is put behind a list, without a separator, goes to its last part. -/
theorem exists_splitOn_append (a : α) (xs : List α) :
    ∃ parts last, ∀ ys, a ∉ ys → (xs ++ ys).splitOn a = parts ++ [last ++ ys] := by
  by_cases ha : a ∈ xs.reverse
  · obtain ⟨last, front, hrev, hlast⟩ := List.eq_append_cons_of_mem ha
    have hxs : xs = front.reverse ++ a :: last.reverse := by
      rw [← List.reverse_reverse xs, hrev]
      simp
    refine ⟨front.reverse.splitOn a, last.reverse, fun ys hys => ?_⟩
    have hend : a ∉ last.reverse ++ ys := by simp [hlast, hys]
    rw [hxs, List.append_assoc, List.cons_append, List.splitOn_append_cons_self,
      List.splitOn_eq_singleton hend]
  · refine ⟨[], xs, fun ys hys => ?_⟩
    have hend : a ∉ xs ++ ys := by simpa [hys] using ha
    rw [List.splitOn_eq_singleton hend, List.nil_append]

/-- Parts with a separator behind each are what splitting gives back, with
the rest behind them. -/
theorem splitOn_flatMap_append (parts : List (List α)) (hparts : ∀ part ∈ parts, a ∉ part)
    (rest : List α) :
    (parts.flatMap (fun part => part ++ [a]) ++ rest).splitOn a = parts ++ rest.splitOn a := by
  induction parts with
  | nil => rfl
  | cons part parts ih =>
    have hpart : a ∉ part := hparts part (by simp)
    have ih := ih fun p hp => hparts p (by simp [hp])
    rw [List.flatMap_cons, List.append_assoc, List.append_assoc, List.singleton_append,
      List.splitOn_append_cons_self_of_not_mem hpart, ih, List.cons_append]

/-- No part holds the separator. -/
theorem notMem_of_mem_splitOn {xs part : List α} (h : part ∈ xs.splitOn a) : a ∉ part := by
  induction xs generalizing part with
  | nil => simp_all
  | cons x xs ih =>
    rw [List.splitOn_cons_eq_if_modifyHead] at h
    split at h
    · rcases List.mem_cons.mp h with rfl | h
      · exact List.not_mem_nil
      · exact ih h
    · next hx =>
      have hne : a ≠ x := fun heq => hx (by simp [heq])
      cases hparts : xs.splitOn a with
      | nil => simp [hparts] at h
      | cons first rest =>
        rw [hparts] at h ih
        rcases List.mem_cons.mp h with rfl | h
        · exact List.not_mem_cons_of_ne_of_not_mem hne (ih (by simp))
        · exact ih (by simp [h])

theorem splitOn_eq_iff {xs : List α} {parts : List (List α)} :
    xs.splitOn a = parts ↔
      parts ≠ [] ∧ (∀ part ∈ parts, a ∉ part) ∧ xs = [a].intercalate parts := by
  constructor
  · rintro rfl
    exact ⟨List.splitOn_ne_nil a xs, fun _ => notMem_of_mem_splitOn,
      (List.intercalate_splitOn a).symm⟩
  · rintro ⟨hne, hparts, rfl⟩
    exact List.splitOn_intercalate a hparts hne

/-- A separator makes parts of a list. -/
theorem two_le_length_splitOn_iff {xs : List α} : 2 ≤ (xs.splitOn a).length ↔ a ∈ xs := by
  by_cases ha : a ∈ xs
  · obtain ⟨part, rest, rfl, hpart⟩ := List.eq_append_cons_of_mem ha
    have hrest : 0 < (rest.splitOn a).length :=
      List.length_pos_iff.mpr (List.splitOn_ne_nil a rest)
    rw [List.splitOn_append_cons_self_of_not_mem hpart, List.length_cons]
    exact iff_of_true (by omega) ha
  · rw [List.splitOn_eq_singleton ha]
    exact iff_of_false (by simp) ha

/-- What is passed on over the good elements of a list, whatever it carries along,
and holds at a bad one, holds of the lists with a bad element behind good ones. -/
theorem exists_first_from_iff {β σ : Type} {p : σ → List β → Prop} {good bad : β → Prop}
    (hnil : ∀ s, ¬ p s [])
    (hcons : ∀ s x xs, ∃ s', p s (x :: xs) ↔ bad x ∨ good x ∧ p s' xs) (s : σ) (xs : List β) :
    p s xs ↔ ∃ front x back, xs = front ++ x :: back ∧ (∀ y ∈ front, good y) ∧ bad x := by
  induction xs generalizing s with
  | nil => simp [hnil]
  | cons x xs ih =>
    obtain ⟨s', hstep⟩ := hcons s x xs
    rw [hstep, ih]
    constructor
    · rintro (hbad | ⟨hgood, front, y, back, rfl, hfront, hy⟩)
      · exact ⟨[], x, xs, rfl, by simp, hbad⟩
      · exact ⟨x :: front, y, back, rfl, List.forall_mem_cons.mpr ⟨hgood, hfront⟩, hy⟩
    · rintro ⟨front, y, back, heq, hfront, hy⟩
      cases front with
      | nil =>
        obtain rfl : x = y := (List.cons.inj heq).1
        exact .inl hy
      | cons z front =>
        obtain ⟨rfl, rfl⟩ := List.cons.inj heq
        obtain ⟨hgood, hfront⟩ := List.forall_mem_cons.mp hfront
        exact .inr ⟨hgood, front, y, back, rfl, hfront, hy⟩

/-- The same for what carries nothing along. -/
theorem exists_first_iff {β : Type} {p : List β → Prop} {good bad : β → Prop} (hnil : ¬ p [])
    (hcons : ∀ x xs, p (x :: xs) ↔ bad x ∨ good x ∧ p xs) (xs : List β) :
    p xs ↔ ∃ front x back, xs = front ++ x :: back ∧ (∀ y ∈ front, good y) ∧ bad x :=
  exists_first_from_iff (p := fun _ => p) (fun _ => hnil) (fun s x xs => ⟨s, hcons x xs⟩) () xs

end CaptureSplit.Splitting
