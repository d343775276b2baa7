import Mathlib.Data.Multiset.AddSub
import Mathlib.Tactic.Ring

/-!
# Loops over a row of entries

The two loops that walk a row, rewriting entries and threading a state, and their
rules: how they append, and a frame rule. The frame rule says what a whole loop keeps
of the entries outside the row from what one step keeps of all the others.
-/
namespace Bucles

universe u v
variable {α : Type u} {β : Type v} {σ : Type*}

/-- The `for` loop over a row that rewrites each entry and threads a state. -/
def bucle (f : σ → α → σ × β) : σ → List α → σ × List β
  | s, [] => (s, [])
  | s, a :: as =>
    ((bucle f (f s a).1 as).1, (f s a).2 :: (bucle f (f s a).1 as).2)

/-- The same loop with a guard checked before each entry and a failing body that
leaves the loop. The flag is the value the loop returns. -/
def bucleMientras (seguir : σ → Bool) (f : σ → α → Bool × σ × α) :
    σ → List α → Bool × σ × List α
  | s, [] => (true, s, [])
  | s, a :: as =>
    if seguir s then
      if (f s a).1 then
        let r := bucleMientras seguir f (f s a).2.1 as
        (r.1, r.2.1, (f s a).2.2 :: r.2.2)
      else (false, (f s a).2.1, (f s a).2.2 :: as)
    else (true, s, a :: as)

section Simple

theorem bucle_append (f : σ → α → σ × β) (s : σ) (xs ys : List α) :
    bucle f s (xs ++ ys) =
      ((bucle f (bucle f s xs).1 ys).1, (bucle f s xs).2 ++ (bucle f (bucle f s xs).1 ys).2) := by
  induction xs generalizing s with
  | nil => rfl
  | cons a as ih => simp [bucle, ih]

@[simp] theorem length_bucle (f : σ → α → σ × β) (s : σ) (xs : List α) :
    (bucle f s xs).2.length = xs.length := by
  induction xs generalizing s with
  | nil => rfl
  | cons a as ih => simp [bucle, ih]

/-- Entries the body leaves alone, state included, are passed over. -/
theorem bucle_replicate {f : σ → α → σ × α} {a : α} {s : σ} (h : f s a = (s, a)) (k : ℕ) :
    bucle f s (List.replicate k a) = (s, List.replicate k a) := by
  induction k with
  | zero => rfl
  | succ k ih => simp [List.replicate_succ, bucle, h, ih]

theorem foldl_eq_bucle (f : σ → α → σ) (b : β) (s : σ) (xs : List α) :
    xs.foldl f s = (bucle (fun s a => (f s a, b)) s xs).1 := by
  induction xs generalizing s with
  | nil => rfl
  | cons a as ih => exact ih (f s a)

theorem bucle_salida_constante (f : σ → α → σ) (b : β) (s : σ) (xs : List α) :
    (bucle (fun s a => (f s a, b)) s xs).2 = List.replicate xs.length b := by
  induction xs generalizing s with
  | nil => rfl
  | cons a as ih => simp [bucle, ih, List.replicate_succ]

/-- A loop whose body only sees part of the state is the loop over that part. -/
theorem bucle_vista {τ : Type*} {f : σ → α → σ × β} {f' : τ → α → τ × β} (g : τ → σ)
    (hf : ∀ t a, (g (f' t a).1, (f' t a).2) = f (g t) a) (t : τ) (xs : List α) :
    (g (bucle f' t xs).1, (bucle f' t xs).2) = bucle f (g t) xs := by
  induction xs generalizing t with
  | nil => rfl
  | cons a as ih => rw [bucle, bucle, ← hf, ← ih]

/-- Frame rule. `Inv` sees the entries still to visit and all the others, those the loop
has left behind and those elsewhere; `vista` is what an observer sees of an entry. A step
that keeps `Inv` and every view makes a loop that keeps them. -/
theorem bucle_marco {f : σ → α → σ × α} (Inv : σ → List α → Multiset α → Prop) (vista : σ → α → β)
    (paso : ∀ s a as c, Inv s (a :: as) c → Inv (f s a).1 as ((f s a).2 ::ₘ c) ∧
      vista (f s a).1 (f s a).2 = vista s a ∧
      ∀ x ∈ (↑as + c : Multiset α), vista (f s a).1 x = vista s x)
    {xs : List α} {s : σ} {c : Multiset α} (h : Inv s xs c) :
    Inv (bucle f s xs).1 [] (↑(bucle f s xs).2 + c) ∧
      (bucle f s xs).2.map (vista (bucle f s xs).1) = xs.map (vista s) ∧
      ∀ x ∈ c, vista (bucle f s xs).1 x = vista s x := by
  induction xs generalizing s c with
  | nil => exact ⟨by simpa [bucle] using h, rfl, fun _ _ => rfl⟩
  | cons a as ih =>
    obtain ⟨hinv, hmismo, hotros⟩ := paso s a as c h
    obtain ⟨hf, hfila, hc⟩ := ih hinv
    refine ⟨?_, ?_, ?_⟩
    · simp only [bucle]
      rwa [← Multiset.cons_coe, Multiset.cons_add, ← Multiset.add_cons]
    · have hcab := (hc _ (Multiset.mem_cons_self _ _)).trans hmismo
      have hcola : as.map (vista (f s a).1) = as.map (vista s) :=
        List.map_congr_left fun x hx => hotros x (Multiset.mem_add.mpr (Or.inl hx))
      simp only [bucle, List.map_cons, hcab, hfila, hcola]
    · intro x hx
      exact (hc x (Multiset.mem_cons_of_mem hx)).trans
        (hotros x (Multiset.mem_add.mpr (Or.inr hx)))

/-- The frame rule when only an invariant over all entries matters. -/
theorem bucle_invariante {f : σ → α → σ × α} (Inv : σ → Multiset α → Prop)
    (paso : ∀ s a c, Inv s (a ::ₘ c) → Inv (f s a).1 ((f s a).2 ::ₘ c)) {xs : List α} {s : σ}
    {c : Multiset α} (h : Inv s (↑xs + c)) :
    Inv (bucle f s xs).1 (↑(bucle f s xs).2 + c) := by
  have hmarco := bucle_marco (f := f) (fun s as c => Inv s (↑as + c)) (fun _ _ => ()) ?_ h
  · simpa using hmarco.1
  · intro s a as c hs
    have hs' : Inv s (a ::ₘ (↑as + c)) := by rwa [← Multiset.cons_add, Multiset.cons_coe]
    refine ⟨?_, rfl, fun _ _ => rfl⟩
    rw [Multiset.add_cons]
    exact paso s a _ hs'

end Simple

section Guardado

variable {seguir : σ → Bool} {f : σ → α → Bool × σ × α}

theorem bucleMientras_parado {s : σ} (h : seguir s = false) (xs : List α) :
    bucleMientras seguir f s xs = (true, s, xs) := by
  cases xs <;> simp [bucleMientras, h]

theorem bucleMientras_append (s : σ) (xs ys : List α) :
    bucleMientras seguir f s (xs ++ ys) =
      if (bucleMientras seguir f s xs).1 then
        ((bucleMientras seguir f (bucleMientras seguir f s xs).2.1 ys).1,
          (bucleMientras seguir f (bucleMientras seguir f s xs).2.1 ys).2.1,
          (bucleMientras seguir f s xs).2.2 ++
            (bucleMientras seguir f (bucleMientras seguir f s xs).2.1 ys).2.2)
      else (false, (bucleMientras seguir f s xs).2.1, (bucleMientras seguir f s xs).2.2 ++ ys) := by
  induction xs generalizing s with
  | nil => simp [bucleMientras]
  | cons a as ih =>
    by_cases hs : seguir s
    · by_cases hf : (f s a).1
      · simp only [List.cons_append, bucleMientras, hs, hf, if_true, ih]
        by_cases hr : (bucleMientras seguir f (f s a).2.1 as).1 <;> simp [hr]
      · simp [bucleMientras, hs, hf]
    · have hs' : seguir s = false := by simpa using hs
      simp [bucleMientras_parado hs']

/-- A loop whose body and guard only see part of the state is the loop over that part. -/
theorem bucleMientras_vista {τ : Type*} {c : τ → Bool} {h : τ → α → Bool × τ × α} (g : τ → σ)
    (hs : ∀ t, c t = seguir (g t))
    (hf : ∀ t a, ((h t a).1, g (h t a).2.1, (h t a).2.2) = f (g t) a) (t : τ) (xs : List α) :
    ((bucleMientras c h t xs).1, g (bucleMientras c h t xs).2.1,
      (bucleMientras c h t xs).2.2) = bucleMientras seguir f (g t) xs := by
  induction xs generalizing t with
  | nil => rfl
  | cons a as ih =>
    have hcuerpo := hf t a
    rw [bucleMientras, bucleMientras, hs t, ← hcuerpo]
    dsimp only
    by_cases hsigue : seguir (g t) = true
    · rw [if_pos hsigue, if_pos hsigue]
      by_cases hok : (h t a).1 = true
      · rw [if_pos hok, if_pos hok, ← ih]
      · rw [if_neg hok, if_neg hok]
    · rw [if_neg hsigue, if_neg hsigue]

theorem length_bucleMientras (s : σ) (xs : List α) :
    (bucleMientras seguir f s xs).2.2.length = xs.length := by
  induction xs generalizing s with
  | nil => rfl
  | cons a as ih =>
    by_cases hs : seguir s <;> by_cases hf : (f s a).1 <;> simp [bucleMientras, hs, hf, ih]

theorem mem_bucleMientras (seguir : σ → Bool) {P : α → Prop} {s : σ} {xs : List α}
    (hx : ∀ a ∈ xs, P a)
    (hf : ∀ s a, P a → P (f s a).2.2) : ∀ a ∈ (bucleMientras seguir f s xs).2.2, P a := by
  induction xs generalizing s with
  | nil => simp [bucleMientras]
  | cons a as ih =>
    have ha : P a := hx a (by simp)
    have has : ∀ b ∈ as, P b := fun b hb => hx b (by simp [hb])
    by_cases hs : seguir s
    · by_cases hr : (f s a).1
      · simpa [bucleMientras, hs, hr] using ⟨hf s a ha, ih has⟩
      · simpa [bucleMientras, hs, hr] using ⟨hf s a ha, has⟩
    · simpa [bucleMientras, hs] using ⟨ha, has⟩

/-- When the step that leaves the loop changes nothing, and no later step would change
anything either, the early exit is the plain loop. -/
theorem bucleMientras_eq_bucle
    (h : ∀ s a, (f s a).1 = false → ∀ b, (f s b).2 = (s, b)) (s : σ) (xs : List α) :
    (bucleMientras (fun _ => true) f s xs).2 = bucle (fun s a => (f s a).2) s xs := by
  induction xs generalizing s with
  | nil => rfl
  | cons a as ih =>
    by_cases hf : (f s a).1
    · simp [bucleMientras, bucle, hf, ← ih]
    · have hquieto := h s a (by simpa using hf)
      have hresto : ∀ ys, bucle (fun s a => (f s a).2) s ys = (s, ys) := by
        intro ys
        induction ys with
        | nil => rfl
        | cons y ys ihy => simp [bucle, hquieto, ihy]
      simp [bucleMientras, hf, hresto, hquieto]

end Guardado

end Bucles
