import Tpssoo.Tartamudeo
import Mathlib.Data.List.Induction

/-!
# Interleaved threads

A pool of threads over a shared state. A program says, for each of its actions, at which
point a thread must be, when the action may happen, what it does to the shared state and at
which points it leaves its thread and those it starts. A run interleaves the actions of the
pool in any order.
-/
namespace Entrelazado

open Tartamudeo

/-- The actions `α` of threads at points `η` over a shared state `σ`. -/
structure Programa (σ η α : Type*) where
  origen : α → η
  guarda : σ → α → Prop
  efecto : σ → α → σ
  destino : σ → α → List η

structure Sistema (σ η : Type*) where
  comun : σ
  hilos : List η

section Pasos

variable {σ η α : Type*} (P : Programa σ η α)

/-- Thread `e.1` is where the action starts, and the action may happen. -/
def Habilitado (e : ℕ × α) (s : Sistema σ η) : Prop :=
  s.hilos[e.1]? = some (P.origen e.2) ∧ P.guarda s.comun e.2

instance [DecidableEq η] [∀ k a, Decidable (P.guarda k a)] (e : ℕ × α) (s : Sistema σ η) :
    Decidable (Habilitado P e s) :=
  inferInstanceAs (Decidable (_ ∧ _))

def siguiente (e : ℕ × α) (s : Sistema σ η) : Sistema σ η where
  comun := P.efecto s.comun e.2
  hilos := s.hilos.take e.1 ++ (P.destino s.comun e.2 ++ s.hilos.drop (e.1 + 1))

variable [DecidableEq η] [∀ k a, Decidable (P.guarda k a)]

/-- The steps of a run in which each action is taken by the first thread that can. -/
def agenda : List α → Sistema σ η → List (ℕ × α)
  | [], _ => []
  | a :: as, s =>
    let e := (s.hilos.findIdx (· = P.origen a), a)
    e :: agenda as (siguiente P e s)

def paso (e : ℕ × α) (s : Sistema σ η) : Option (Sistema σ η) :=
  if Habilitado P e s then some (siguiente P e s) else none

variable {P} {e : ℕ × α} {s s' : Sistema σ η}

/-- What a step can do: one thread moves, between those before it and those after it. -/
theorem paso_casos (h : paso P e s = some s') :
    ∃ l r, s.hilos = l ++ P.origen e.2 :: r ∧ l.length = e.1 ∧ P.guarda s.comun e.2 ∧
      s' = ⟨P.efecto s.comun e.2, l ++ (P.destino s.comun e.2 ++ r)⟩ := by
  rw [paso] at h
  split at h
  · next hhab =>
      obtain ⟨hlt, hget⟩ := List.getElem?_eq_some_iff.mp hhab.1
      refine ⟨s.hilos.take e.1, s.hilos.drop (e.1 + 1), ?_, List.length_take_of_le
        (Nat.le_of_lt hlt),
        hhab.2, (Option.some.inj h).symm⟩
      rw [← hget, List.getElem_cons_drop, List.take_append_drop]
  · cases h

/-- The thread between `l` and `r` takes its action. -/
theorem paso_hace {k : σ} {l r : List η} {a : α} (hguarda : P.guarda k a) :
    paso P (l.length, a) ⟨k, l ++ P.origen a :: r⟩ =
      some ⟨P.efecto k a, l ++ (P.destino k a ++ r)⟩ := by
  have hhab : Habilitado P (l.length, a) ⟨k, l ++ P.origen a :: r⟩ := by
    refine ⟨?_, hguarda⟩
    rw [List.getElem?_append_right (Nat.le_refl _), Nat.sub_self, List.getElem?_cons_zero]
  rw [paso, if_pos hhab, siguiente, List.take_left, List.drop_append, Nat.add_sub_cancel_left,
    List.drop_eq_nil_of_le (Nat.le_succ _), List.nil_append, List.drop_one, List.tail_cons]

theorem paso_comun (h : paso P e s = some s') : s'.comun = P.efecto s.comun e.2 := by
  obtain ⟨l, r, -, -, -, rfl⟩ := paso_casos h
  rfl

theorem paso_guarda (h : paso P e s = some s') : P.guarda s.comun e.2 := by
  obtain ⟨l, r, -, -, hg, -⟩ := paso_casos h
  exact hg

/-- A thread was there before the step, or the step left it. -/
theorem paso_hilos (h : paso P e s = some s') {d : η} (hd : d ∈ s'.hilos) :
    d ∈ s.hilos ∨ d ∈ P.destino s.comun e.2 := by
  obtain ⟨l, r, hs, -, -, rfl⟩ := paso_casos h
  rw [hs]
  simp only [List.mem_append, List.mem_cons] at hd ⊢
  tauto

end Pasos

section Corridas

variable {σ η α : Type*} (P : Programa σ η α) [DecidableEq η]
  [∀ k a, Decidable (P.guarda k a)]

/-- The state after a run all of whose steps meet `C`. -/
def Llega (C : ℕ × α → Sistema σ η → Prop) (s s' : Sistema σ η) : Prop :=
  ∃ es, Cumple (paso P) C es s ∧ correr (paso P) es s = some s'

variable {P} {C : ℕ × α → Sistema σ η → Prop} {s s' : Sistema σ η}

/-- What every action preserves holds after every run. -/
theorem invariante_llega {I : Sistema σ η → Prop}
    (hpaso : ∀ k l r a, I ⟨k, l ++ P.origen a :: r⟩ → P.guarda k a →
      C (l.length, a) ⟨k, l ++ P.origen a :: r⟩ →
      I ⟨P.efecto k a, l ++ (P.destino k a ++ r)⟩)
    (hs : I s) (h : Llega P C s s') : I s' := by
  obtain ⟨es, hC, hcorrer⟩ := h
  refine invariante_corrida (fun e s s' hI hCe hp => ?_) hs hC hcorrer
  obtain ⟨l, r, hhilos, hl, hguarda, rfl⟩ := paso_casos hp
  obtain ⟨k, hilos⟩ := s
  cases hhilos
  obtain ⟨i, a⟩ := e
  cases hl
  exact hpaso k l r a hI hguarda hCe

end Corridas

section Historias

variable {ε σ : Type*} {paso : ε → σ → Option σ} {A B : ε → σ → Prop} {es : List ε} {e : ε}
  {s s₁ s₂ : σ}

/-- The run has a step that meets `A`, and all its later steps meet `B`. -/
def Desde (paso : ε → σ → Option σ) (A B : ε → σ → Prop) (es : List ε) (s : σ) : Prop :=
  ∃ es₁ e es₂ s₁ s₂, es = es₁ ++ e :: es₂ ∧ correr paso es₁ s = some s₁ ∧ A e s₁ ∧
    paso e s₁ = some s₂ ∧ Cumple paso B es₂ s₂

theorem correr_concat : correr paso (es ++ [e]) s = (correr paso es s).bind (paso e) := by
  rw [correr_append]
  congr 1
  funext s'
  rw [correr_cons]
  exact Option.bind_fun_some (paso e s')

theorem cumple_append {es' : List ε} (hrun : correr paso es s = some s₁) :
    Cumple paso B (es ++ es') s ↔ Cumple paso B es s ∧ Cumple paso B es' s₁ := by
  induction es generalizing s with
  | nil =>
    cases hrun
    exact ⟨fun h => ⟨trivial, h⟩, And.right⟩
  | cons e es ih =>
    rw [correr_cons] at hrun
    obtain ⟨s', hs', hrun⟩ := Option.bind_eq_some_iff.mp hrun
    constructor
    · rintro ⟨he, hes⟩
      obtain ⟨h₁, h₂⟩ := (ih hrun).mp (hes s' hs')
      refine ⟨⟨he, fun s'' hs'' => ?_⟩, h₂⟩
      cases hs'.symm.trans hs''
      exact h₁
    · rintro ⟨⟨he, hes⟩, h₂⟩
      refine ⟨he, fun s'' hs'' => ?_⟩
      cases hs'.symm.trans hs''
      exact (ih hrun).mpr ⟨hes s' hs', h₂⟩

theorem cumple_concat (hrun : correr paso es s = some s₁) :
    Cumple paso B (es ++ [e]) s ↔ Cumple paso B es s ∧ B e s₁ := by
  rw [cumple_append hrun]
  exact and_congr_right fun _ => ⟨And.left, fun h => ⟨h, fun _ _ => trivial⟩⟩

theorem Desde.aqui (hrun : correr paso es s = some s₁) (hA : A e s₁) (hp : paso e s₁ = some s₂) :
    Desde paso A B (es ++ [e]) s :=
  ⟨es, e, [], s₁, s₂, rfl, hrun, hA, hp, trivial⟩

theorem Desde.sigue (hrun : correr paso es s = some s₁) (hB : B e s₁)
    (h : Desde paso A B es s) : Desde paso A B (es ++ [e]) s := by
  obtain ⟨es₁, e', es₂, s', s'', rfl, hrun', hA, hp, hcumple⟩ := h
  refine ⟨es₁, e', es₂ ++ [e], s', s'', by simp, hrun', hA, hp, ?_⟩
  rw [correr_append, hrun', Option.bind_some, correr_cons, hp, Option.bind_some] at hrun
  exact (cumple_concat hrun).mpr ⟨hcumple, hB⟩

/-- The two ways in which a longer run may have such a step. -/
theorem Desde.casos (hrun : correr paso es s = some s₁) (h : Desde paso A B (es ++ [e]) s) :
    A e s₁ ∨ Desde paso A B es s ∧ B e s₁ := by
  obtain ⟨es₁, e', es₂, s', s'', heq, hrun', hA, hp, hcumple⟩ := h
  rcases List.eq_nil_or_concat es₂ with rfl | ⟨es₃, e₃, rfl⟩
  · obtain ⟨rfl, h⟩ := List.append_inj' heq rfl
    cases h
    cases hrun.symm.trans hrun'
    exact Or.inl hA
  · rw [List.concat_eq_append, ← List.cons_append, ← List.append_assoc] at heq
    obtain ⟨rfl, h⟩ := List.append_inj' heq rfl
    cases h
    rw [List.concat_eq_append] at hcumple
    have hrun₂ := hrun
    rw [correr_append, hrun', Option.bind_some, correr_cons, hp, Option.bind_some] at hrun₂
    obtain ⟨h₁, h₂⟩ := (cumple_concat hrun₂).mp hcumple
    exact Or.inr ⟨⟨es₁, e', es₃, s', s'', rfl, hrun', hA, hp, h₁⟩, h₂⟩

/-- What holds at the start and is kept by every step, given the run so far. -/
theorem invariante_historia {I : List ε → σ → Prop} (hnil : I [] s)
    (hpaso : ∀ es e s₁ s₂, correr paso es s = some s₁ → I es s₁ → paso e s₁ = some s₂ →
      I (es ++ [e]) s₂)
    (hrun : correr paso es s = some s₁) : I es s₁ := by
  induction es using List.reverseRecOn generalizing s₁ with
  | nil =>
    cases hrun
    exact hnil
  | append_singleton es e ih =>
    rw [correr_concat] at hrun
    obtain ⟨s₀, hrun₀, hp⟩ := Option.bind_eq_some_iff.mp hrun
    exact hpaso es e s₀ s₁ hrun₀ (ih hrun₀) hp

end Historias

section Roles

variable {η ι : Type*} {f : η → Option ι} {l r ds : List η} {h : η} {x : ι}

/-- What the threads of a role are about is different for each. -/
def Unico (f : η → Option ι) (hs : List η) : Prop := (hs.filterMap f).Nodup

/-- A thread of the role stays in it, or leaves it. -/
theorem Unico.mueve (hu : Unico f (l ++ h :: r))
    (hds : (ds.filterMap f).Sublist ([h].filterMap f)) : Unico f (l ++ (ds ++ r)) := by
  refine List.Nodup.sublist ?_ hu
  rw [List.filterMap_append, List.filterMap_append, ← List.singleton_append (x := h),
    List.filterMap_append, List.filterMap_append]
  exact (List.Sublist.refl _).append (hds.append (List.Sublist.refl _))

/-- A thread takes the role, about something new. -/
theorem Unico.entra (hu : Unico f (l ++ h :: r)) (hds : ds.filterMap f = [x])
    (hx : x ∉ (l ++ h :: r).filterMap f) : Unico f (l ++ (ds ++ r)) := by
  have hsub : ((l ++ r).filterMap f).Sublist ((l ++ h :: r).filterMap f) :=
    ((List.Sublist.refl l).append (List.sublist_cons_self h r)).filterMap f
  have hperm : ((l ++ (ds ++ r)).filterMap f).Perm (x :: (l ++ r).filterMap f) := by
    simp only [List.filterMap_append, hds]
    exact List.perm_middle
  exact hperm.nodup_iff.mpr (List.nodup_cons.mpr ⟨fun h => hx (hsub.subset h), hsub.nodup hu⟩)

/-- No other thread has the role about the same. -/
theorem Unico.solo (hu : Unico f (l ++ h :: r)) (hh : f h = some x) : x ∉ (l ++ r).filterMap f := by
  have hperm : ((l ++ h :: r).filterMap f).Perm (x :: (l ++ r).filterMap f) := by
    rw [List.filterMap_append, List.filterMap_cons_some hh, List.filterMap_append]
    exact List.perm_middle
  exact (List.nodup_cons.mp (hperm.nodup_iff.mp hu)).1

end Roles

end Entrelazado
