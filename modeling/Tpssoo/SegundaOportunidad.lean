import Mathlib.Data.List.Basic

/-!
# The second-chance clock

The textbook algorithm on frames read from the hand: a frame with its use bit loses it and is
passed over, the first without it gets the new page with the bit set, and the hand moves past.
-/
namespace SegundaOportunidad

variable {π : Type*}

/-- A frame with its use bit; a free one has no page. -/
structure Marco (π : Type*) where
  pagina : Option π
  uso : Bool
  deriving DecidableEq, Repr

def bajar (x : Marco π) : Marco π := { x with uso := false }

/-- The page that leaves and the frames past it, when the hand may examine `n` frames. -/
def examinar : ℕ → List (Marco π) → Option (Option π × List (Marco π))
  | 0, _ => none
  | _ + 1, [] => none
  | n + 1, x :: xs => if x.uso then examinar n (xs ++ [bajar x]) else some (x.pagina, xs)

/-- A clock without frames keeps nothing. -/
def cargar (p : π) (xs : List (Marco π)) : Option (Option π × List (Marco π)) :=
  if xs = [] then some (none, [])
  else (examinar (xs.length + 1) xs).map fun r => (r.1, r.2 ++ [⟨some p, true⟩])

def usar [DecidableEq π] (p : π) (xs : List (Marco π)) : List (Marco π) :=
  xs.map fun x => if x.pagina = some p then { x with uso := true } else x

inductive Op (π : Type*) where
  | golpe (p : π)
  | carga (p : π)
  deriving DecidableEq, Repr

/-- One operation on the victims so far and the frames. -/
def paso [DecidableEq π] : Op π → List π × List (Marco π) → Option (List π × List (Marco π))
  | .golpe p, s => some (s.1, usar p s.2)
  | .carga p, s => (cargar p s.2).map fun r => (s.1 ++ r.1.toList, r.2)

section Reglas

variable {us xs : List (Marco π)} {x : Marco π} {p : π} {n : ℕ}

/-- The hand goes over frames that are in use. -/
theorem examinar_usados (hus : ∀ u ∈ us, u.uso = true) :
    examinar (us.length + n) (us ++ xs) = examinar n (xs ++ us.map bajar) := by
  induction us generalizing xs with
  | nil => rw [List.length_nil, Nat.zero_add, List.nil_append, List.map_nil, List.append_nil]
  | cons u us ih =>
    have hu := hus u List.mem_cons_self
    have hsuma : (u :: us).length + n = us.length + n + 1 := by
      rw [List.length_cons]
      omega
    rw [hsuma, List.cons_append, examinar, if_pos hu, List.append_assoc,
      ih fun v hv => hus v (List.mem_cons_of_mem _ hv)]
    simp

theorem examinar_libre (hx : x.uso = false) : examinar (n + 1) (x :: xs) = some (x.pagina, xs) := by
  rw [examinar, if_neg (by rw [hx]; decide)]

theorem cargar_libre (hx : x.uso = false) :
    cargar p (x :: xs) = some (x.pagina, xs ++ [⟨some p, true⟩]) := by
  rw [cargar, if_neg (List.cons_ne_nil x xs), examinar_libre hx]
  rfl

/-- The first frame that is not in use is replaced. -/
theorem cargar_primero (hus : ∀ u ∈ us, u.uso = true) (hx : x.uso = false) :
    cargar p (us ++ x :: xs) = some (x.pagina, xs ++ us.map bajar ++ [⟨some p, true⟩]) := by
  have hsuma : (us ++ x :: xs).length + 1 = us.length + (xs.length + 1 + 1) := by
    rw [List.length_append, List.length_cons]
    omega
  have hne : us ++ x :: xs ≠ [] := List.append_ne_nil_of_right_ne_nil us (List.cons_ne_nil x xs)
  rw [cargar, if_neg hne, hsuma, examinar_usados hus, List.cons_append, examinar_libre hx]
  rfl

/-- When all the frames are in use the hand goes around and replaces the first. -/
theorem cargar_vuelta (hus : ∀ u ∈ x :: us, u.uso = true) :
    cargar p (x :: us) = some (x.pagina, us.map bajar ++ [⟨some p, true⟩]) := by
  have hgira : examinar ((x :: us).length + 1) ((x :: us) ++ []) =
      examinar 1 ([] ++ (x :: us).map bajar) := examinar_usados hus
  rw [List.append_nil, List.nil_append, List.map_cons,
    examinar_libre (x := bajar x) rfl] at hgira
  rw [cargar, if_neg (List.cons_ne_nil x us), hgira]
  rfl

end Reglas

end SegundaOportunidad
