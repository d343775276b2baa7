import Mathlib.Data.List.Rotate

/-!
# Circular lists

A list read from a position that advances around it. The element under the position is the
head of the rotated list, and to advance past it is to move it to the end.
-/
namespace ListaCircular

variable {α : Type*} {l : List α} {p : ℕ} {x : α}

/-- What is written under the position is the head. -/
theorem rotate_set (hp : p < l.length) : (l.set p x).rotate p = x :: (l.rotate p).tail := by
  rw [List.rotate_eq_drop_append_take (by rw [List.length_set]; exact hp.le),
    List.rotate_eq_drop_append_take hp.le, List.drop_set, List.take_set, if_neg (lt_irrefl p),
    Nat.sub_self, List.set_eq_of_length_le (List.length_take_le _ _), List.drop_eq_getElem_cons hp]
  rfl

theorem rotate_siguiente (hp : p < l.length) :
    l.rotate ((p + 1) % l.length) = (l.rotate p).tail ++ (l.rotate p).head?.toList := by
  rw [List.rotate_mod, ← List.rotate_rotate]
  cases h : l.rotate p with
  | nil =>
    have hlen := congrArg List.length h
    rw [List.length_rotate] at hlen
    exact absurd hlen (Nat.ne_of_gt (Nat.zero_lt_of_lt hp))
  | cons x xs => rw [List.rotate_cons_succ, List.rotate_zero]; rfl

/-- What is written under the position goes to the end when the position advances. -/
theorem rotate_set_siguiente (hp : p < l.length) :
    (l.set p x).rotate ((p + 1) % l.length) = (l.rotate p).tail ++ [x] := by
  have hlen : (l.set p x).length = l.length := List.length_set
  have hsig := rotate_siguiente (l := l.set p x) (hlen.symm ▸ hp)
  rw [hlen, rotate_set hp] at hsig
  exact hsig

/-- The head of the rotated list, where it has one. -/
theorem rotate_cons (hp : p < l.length) : l.rotate p = l[p] :: (l.rotate p).tail := by
  have h := List.head?_rotate hp
  rw [List.getElem?_eq_getElem hp] at h
  cases hl : l.rotate p with
  | nil =>
    rw [hl] at h
    cases h
  | cons x xs =>
    rw [hl] at h
    cases h
    rfl

end ListaCircular
