import Tpssoo.Tartamudeo

/-!
# A queue along a run

A run of a machine some of whose steps take from the head of a queue, while the others add at
its end or only reorder it. What was in the queue and what entered it is then what left it
and what is still there; while nothing reorders it, in the same order.
-/
namespace ColaEnCorridas

open Tartamudeo

variable {ε σ β : Type*} {paso : ε → σ → Option σ} {cola : σ → List β} {sale : ε → List β}
  {I : σ → Prop} {e : ε} {es : List ε} {s s' : σ}

/-- What the steps of a run add to the queue. -/
def entradas (paso : ε → σ → Option σ) (cola : σ → List β) : List ε → σ → List β
  | [], _ => []
  | e :: es, s =>
    match paso e s with
    | none => []
    | some s' => (cola s').drop (cola s).length ++ entradas paso cola es s'

/-- What the steps of a run take from it. -/
def salidas (sale : ε → List β) (es : List ε) : List β := es.flatMap sale

/-- One step takes these from the head, or adds at the end. -/
inductive Avanza (cola : σ → List β) (salen : List β) (s s' : σ) : Prop
  | entra (hsalen : salen = []) (h : cola s <+: cola s')
  | sale (h : cola s = salen ++ cola s')

/-- One step does one of these, or reorders the queue. -/
inductive Mueve (cola : σ → List β) (salen : List β) (s s' : σ) : Prop
  | avanza (h : Avanza cola salen s s')
  | ordena (hsalen : salen = []) (h : (cola s').Perm (cola s))

theorem Avanza.cuenta {salen : List β} (h : Avanza cola salen s s') :
    cola s ++ (cola s').drop (cola s).length = salen ++ cola s' := by
  cases h with
  | entra hsalen h =>
    obtain ⟨xs, hxs⟩ := h
    rw [hsalen, ← hxs, List.drop_left, List.nil_append]
  | sale h =>
    have hvacia : (cola s').drop (cola s).length = [] := by
      apply List.drop_eq_nil_of_le
      rw [h, List.length_append]
      exact Nat.le_add_left _ _
    rw [hvacia, List.append_nil, h]

theorem Mueve.cuenta {salen : List β} (h : Mueve cola salen s s') :
    (cola s ++ (cola s').drop (cola s).length).Perm (salen ++ cola s') := by
  cases h with
  | avanza h => exact .of_eq h.cuenta
  | ordena hsalen h =>
    have hvacia : (cola s').drop (cola s).length = [] := 
      List.drop_eq_nil_of_le (Nat.le_of_eq h.length_eq)
    rw [hvacia, hsalen, List.append_nil, List.nil_append]
    exact h.symm

/-- Nothing is lost, repeated or overtaken. -/
theorem entradas_en_orden (hI : ∀ e s s', I s → paso e s = some s' → I s')
    (hpaso : ∀ e s s', I s → paso e s = some s' → Avanza cola (sale e) s s') (hs : I s)
    (hrun : correr paso es s = some s') :
    cola s ++ entradas paso cola es s = salidas sale es ++ cola s' := by
  induction es generalizing s with
  | nil =>
    cases hrun
    simp [entradas, salidas]
  | cons e es ih =>
    rw [correr_cons] at hrun
    obtain ⟨s₁, hp, hrun⟩ := Option.bind_eq_some_iff.mp hrun
    have hresto := ih (hI e s s₁ hs hp) hrun
    have huno := (hpaso e s s₁ hs hp).cuenta
    rw [entradas, hp]
    dsimp only
    rw [← List.append_assoc, huno, List.append_assoc, hresto, ← List.append_assoc]
    rfl

/-- Nothing is lost or repeated. -/
theorem entradas_perm (hI : ∀ e s s', I s → paso e s = some s' → I s')
    (hpaso : ∀ e s s', I s → paso e s = some s' → Mueve cola (sale e) s s') (hs : I s)
    (hrun : correr paso es s = some s') :
    (cola s ++ entradas paso cola es s).Perm (salidas sale es ++ cola s') := by
  induction es generalizing s with
  | nil =>
    cases hrun
    simp [entradas, salidas]
  | cons e es ih =>
    rw [correr_cons] at hrun
    obtain ⟨s₁, hp, hrun⟩ := Option.bind_eq_some_iff.mp hrun
    have hresto := ih (hI e s s₁ hs hp) hrun
    have huno := (hpaso e s s₁ hs hp).cuenta
    have htodo := (huno.append_right (entradas paso cola es s₁)).trans
      (.trans (.of_eq (List.append_assoc _ _ _)) (hresto.append_left (sale e)))
    rw [List.append_assoc, ← List.append_assoc (sale e)] at htodo
    rw [entradas, hp]
    exact htodo

end ColaEnCorridas
