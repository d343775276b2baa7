import Tpssoo.KernelLargoPlazo
import Tpssoo.ColaEnCorridas

/-!
# From NEW and SUSPENDED_READY to READY

The long-term planner takes the head of a queue that it looked at before it called Memoria.
The head is still the process that it offered: what it admits, put after one another, is what
entered the queue.
-/
namespace KernelTraspaso

open EnterosC KernelEstado KernelFunciones KernelHilos KernelVistas KernelLargoPlazo ColaEnCorridas
open Entrelazado Tartamudeo

section Traspasos

/-- One of the two queues that the planner takes from. -/
def cola (susp : Bool) (s : Sistema Kernel Hilo) : List ℤ := s.comun.colas (colaDe susp)

/-- What the planner admits from one of them. -/
def admite (susp : Bool) (e : ℕ × Accion) : List ℤ :=
  match e.2 with
  | .largoResuelve p susp' true => if susp' = susp then [p] else []
  | _ => []

/-- Memoria answers that it admits the process. -/
def Aprueba (p : ℤ) (susp : Bool) (e : ℕ × Accion) (_ : Sistema Kernel Hilo) : Prop :=
  e.2 = .largoRecibe p susp true

/-- A step of another thread. -/
def DeOtro (c : ConfigKernel) (e : ℕ × Accion) (_ : Sistema Kernel Hilo) : Prop :=
  planifica ((programa c).origen e.2) = none

end Traspasos

section Pasos

variable {c : ConfigKernel} {k : Kernel} {a : Accion} {e : ℕ × Accion} {s s' : Sistema Kernel Hilo}
  {susp : Bool} {p : ℤ}

theorem planificador_siguiente (hI : Planificador s) (h : paso (programa c) e s = some s') :
    Planificador s' := by
  obtain ⟨l, r, hhilos, -, hguarda, rfl⟩ := paso_casos h
  obtain ⟨k, hilos⟩ := s
  cases hhilos
  exact planificador_paso hI hguarda.1

theorem admite_ajena (h : planifica ((programa c).origen e.2) = none) : admite susp e = [] := by
  obtain ⟨i, a⟩ := e
  cases a with
  | largoResuelve p susp' ok => cases h
  | _ => rfl

theorem admite_admision (i : ℕ) (susp' : Bool) :
    admite susp (i, .largoResuelve p susp' true) = if susp' = susp then [p] else [] := rfl

/-- Under FIFO the choice of a candidate leaves its queue as it was. -/
theorem elegir_fifo (hfifo : c.algoritmoLargoPlazo = .fifo) (e : Estado) :
    (elegirCandidato c k).colas e = k.colas e := by
  rw [elegirCandidato, ordenLargoPlazo, hfifo]
  split
  · rfl
  · exact congrFun (Function.update_eq_self _ _) e

theorem colas_de_otro (h : planifica ((programa c).origen a) = none) (susp : Bool) :
    k.colas (colaDe susp) <+: ((programa c).efecto k a).colas (colaDe susp) := by
  cases susp with
  | false => exact nuevos_ajenos h
  | true => exact (suspendidos_ajenos h).1

/-- The admission of the head of its queue. -/
theorem admitir_traspasa (hhead : (k.colas (colaDe susp)).head? = some p) :
    k.colas (colaDe susp) = p :: (admitir c k p susp).colas (colaDe susp) ∧
      (admitir c k p susp).colas .ready = k.colas .ready ++ [p] ∧
      ∀ e, e ≠ .ready → e ≠ colaDe susp → (admitir c k p susp).colas e = k.colas e := by
  obtain ⟨e, i, h, -⟩ := admitir_eq c k p susp
  have hready : colaDe susp ≠ .ready := by cases susp <;> decide
  rw [h]
  refine ⟨?_, ?_, fun e he he' => ?_⟩
  · dsimp only
    rw [Function.update_of_ne hready, Function.update_self, List.cons_head?_tail hhead]
  · dsimp only
    rw [Function.update_self]
  · dsimp only
    rw [Function.update_of_ne he, Function.update_of_ne he']

theorem candidato_cabeza (hI : Planificador s) (hk : s.comun.indefinido = false) {ok : Bool}
    (hmem : Hilo.largoResuelve p susp ok ∈ s.hilos) :
    (s.comun.colas (colaDe susp)).head? = some p :=
  hI.candidato hk _ hmem p susp rfl

/-- What a step does to a queue of the planner. -/
theorem mueve_paso (hI : Planificador s) (h : paso (programa c) e s = some s') (susp : Bool) :
    Mueve (cola susp) (admite susp e) s s' ∧
      (c.algoritmoLargoPlazo = .fifo → Avanza (cola susp) (admite susp e) s s') := by
  have hcomun := paso_comun h
  have hguarda := paso_guarda h
  have hmem : (programa c).origen e.2 ∈ s.hilos := by
    obtain ⟨l, r, hhilos, -⟩ := paso_casos h
    rw [hhilos]
    exact List.mem_append_right _ List.mem_cons_self
  suffices hpaso : Avanza (cola susp) (admite susp e) s s' ∨ e.2 = .largoElige by
    rcases hpaso with hpaso | helige
    · exact ⟨.avanza hpaso, fun _ => hpaso⟩
    · obtain ⟨i, a⟩ := e
      cases helige
      have hcolas : cola susp s' = (elegirCandidato c s.comun).colas (colaDe susp) :=
        congrArg (fun k => Kernel.colas k (colaDe susp)) hcomun
      refine ⟨.ordena rfl (hcolas ▸ elegir_colas _), fun hfifo => .entra rfl ?_⟩
      rw [hcolas]
      exact prefijo_de_igual (elegir_fifo hfifo _)
  cases hpl : planifica ((programa c).origen e.2) with
  | none =>
    refine Or.inl (.entra (admite_ajena hpl) ?_)
    rw [cola, cola, hcomun]
    exact colas_de_otro hpl susp
  | some u =>
    obtain ⟨i, a⟩ := e
    cases a with
    | largoElige => exact Or.inr rfl
    | largoArranca | largoDespierta | largoFallaConexion _ _ | largoRecibe _ _ _ =>
      refine Or.inl (.entra rfl ?_)
      rw [cola, cola, hcomun]
      exact List.prefix_rfl
    | largoEnvia p susp' =>
      refine Or.inl (.entra rfl ?_)
      rw [cola, cola, hcomun]
      dsimp only [programa, transicion]
      split <;> exact List.prefix_rfl
    | largoResuelve p susp' ok =>
      cases ok with
      | false =>
        refine Or.inl (.entra rfl ?_)
        rw [cola, cola, hcomun]
        exact List.prefix_rfl
      | true =>
        have hhead := candidato_cabeza hI hguarda.1 hmem
        obtain ⟨hsale, -, hresto⟩ := admitir_traspasa (c := c) hhead
        have hefecto : s'.comun = admitir c s.comun p susp' := hcomun
        by_cases hcual : susp' = susp
        · subst hcual
          refine Or.inl (.sale ?_)
          rw [admite_admision, if_pos rfl, cola, cola, hefecto]
          exact hsale
        · have hready : colaDe susp ≠ .ready := by cases susp <;> decide
          have hotra : colaDe susp ≠ colaDe susp' := by
            cases susp <;> cases susp' <;> first | decide | exact absurd rfl hcual
          have hquieta : cola susp s' = cola susp s := by
            rw [cola, cola, hefecto, hresto (colaDe susp) hready hotra]
          exact Or.inl (.entra (if_neg hcual) (prefijo_de_igual hquieta))
    | _ => cases hpl

end Pasos

section Corridas

variable {c : ConfigKernel} {e : ℕ × Accion} {es : List (ℕ × Accion)}
  {s₀ s s' : Sistema Kernel Hilo}
  {susp : Bool} {p : ℤ}

/-- A planner that is about to admit has its answer from Memoria, and has not moved since. -/
def Respondido (c : ConfigKernel) (s₀ : Sistema Kernel Hilo) (es : List (ℕ × Accion))
    (s : Sistema Kernel Hilo) : Prop :=
  Planificador s ∧ ∀ p susp, Hilo.largoResuelve p susp true ∈ s.hilos →
    Desde (paso (programa c)) (Aprueba p susp) (DeOtro c) es s₀

theorem recibe_de_destino {k : Kernel} {a : Accion}
    (h : Hilo.largoResuelve p susp true ∈ (programa c).destino k a) :
    a = .largoRecibe p susp true := by
  cases hpl : planifica ((programa c).origen a) with
  | none => cases planifica_destino hpl _ h
  | some u =>
    cases a with
    | largoRecibe p' susp' ok =>
      cases List.mem_singleton.mp h
      rfl
    | largoElige =>
      dsimp only [programa, transicion] at h
      split at h <;> cases List.mem_singleton.mp h
    | largoResuelve p' susp' ok =>
      dsimp only [programa, transicion] at h
      split at h <;> cases List.mem_singleton.mp h
    | largoArranca | largoDespierta | largoFallaConexion _ _ | largoEnvia _ _ =>
      cases List.mem_singleton.mp h
    | _ => cases hpl

theorem respondido_paso (hrun : correr (paso (programa c)) es s₀ = some s)
    (hI : Respondido c s₀ es s) (h : paso (programa c) e s = some s') :
    Respondido c s₀ (es ++ [e]) s' := by
  obtain ⟨hplan, hresp⟩ := hI
  refine ⟨planificador_siguiente hplan h, fun p susp hmem => ?_⟩
  obtain ⟨l, r, hhilos, -, -, hs'⟩ := paso_casos h
  rcases hs' with rfl
  simp only [List.mem_append] at hmem
  have hviejo : Hilo.largoResuelve p susp true ∈ l ++ r →
      Desde (paso (programa c)) (Aprueba p susp) (DeOtro c) (es ++ [e]) s₀ := by
    intro hquieto
    have hotro : DeOtro c e s := by
      obtain ⟨k, hilos⟩ := s
      cases hhilos
      cases hpl : planifica ((programa c).origen e.2) with
      | none => exact hpl
      | some u => cases solo_planifica hplan hpl _ hquieto
    refine Desde.sigue hrun hotro (hresp p susp ?_)
    rw [hhilos]
    simp only [List.mem_append, List.mem_cons] at hquieto ⊢
    tauto
  rcases hmem with hmem | hmem | hmem
  · exact hviejo (List.mem_append_left _ hmem)
  · exact Desde.aqui hrun (recibe_de_destino hmem) h
  · exact hviejo (List.mem_append_right _ hmem)

theorem respondido_inicial (c : ConfigKernel) (path : List Byte) (tamanio : ℤ)
    (absoluto : Option (List Byte)) :
    Respondido c (arranque c path tamanio absoluto) [] (arranque c path tamanio absoluto) := by
  refine ⟨planificador_inicial c path tamanio absoluto, fun p susp hmem => ?_⟩
  simp [arranque] at hmem

/-- What entered `cola_new` and `cola_suspended_ready` along a run is what the planner admitted
from them and what they still hold, under FIFO in the same order; and an admission moves the
very process that Memoria has just admitted, and no other. -/
structure Traspaso (c : ConfigKernel) (s₀ : Sistema Kernel Hilo) (es : List (ℕ × Accion))
    (s : Sistema Kernel Hilo) : Prop where
  todos (susp : Bool) : (cola susp s₀ ++ entradas (paso (programa c)) (cola susp) es s₀).Perm
    (salidas (admite susp) es ++ cola susp s)
  enOrden (susp : Bool) (hfifo : c.algoritmoLargoPlazo = .fifo) :
    cola susp s₀ ++ entradas (paso (programa c)) (cola susp) es s₀ =
      salidas (admite susp) es ++ cola susp s
  admision (i : ℕ) (p : ℤ) (susp : Bool) (s' : Sistema Kernel Hilo)
    (h : paso (programa c) (i, .largoResuelve p susp true) s = some s') :
    Desde (paso (programa c)) (Aprueba p susp) (DeOtro c) es s₀ ∧
      cola susp s = p :: cola susp s' ∧
      s'.comun.colas .ready = s.comun.colas .ready ++ [p] ∧
      ∀ e, e ≠ .ready → e ≠ colaDe susp → s'.comun.colas e = s.comun.colas e

/-- Every run of all the threads. -/
theorem planificador_admite_al_aprobado {path : List Byte} {tamanio : ℤ}
    {absoluto : Option (List Byte)}
    (hrun : correr (paso (programa c)) es (arranque c path tamanio absoluto) = some s) :
    Traspaso c (arranque c path tamanio absoluto) es s := by
  have hinicial := planificador_inicial c path tamanio absoluto
  constructor
  · intro susp
    exact entradas_perm (fun _ _ _ => planificador_siguiente)
      (fun _ _ _ hI h => (mueve_paso hI h susp).1) hinicial hrun
  · intro susp hfifo
    exact entradas_en_orden (fun _ _ _ => planificador_siguiente)
      (fun _ _ _ hI h => (mueve_paso hI h susp).2 hfifo) hinicial hrun
  · intro i p susp s' h
    obtain ⟨hplan, hresp⟩ : Respondido c (arranque c path tamanio absoluto) es s :=
      invariante_historia (respondido_inicial c path tamanio absoluto)
        (fun _ _ _ _ hcorrer hI hp => respondido_paso hcorrer hI hp) hrun
    obtain ⟨l, r, hhilos, -, hguarda, rfl⟩ := paso_casos h
    have hmem : Hilo.largoResuelve p susp true ∈ s.hilos := by
      rw [hhilos]
      exact List.mem_append_right _ List.mem_cons_self
    have hhead := candidato_cabeza hplan hguarda.1 hmem
    obtain ⟨hsale, hready, hresto⟩ := admitir_traspasa (c := c) hhead
    exact ⟨hresp p susp hmem, hsale, hready, hresto⟩

theorem planificador_admite_al_aprobado_ejemplo : ∃ s, tras configuracion hastaEjecutar = some s ∧
    Traspaso configuracion (arranque configuracion [65] 10 none)
      (agenda (programa configuracion) hastaEjecutar (arranque configuracion [65] 10 none)) s := by
  have hdef : (tras configuracion hastaEjecutar).isSome := by decide +kernel
  obtain ⟨s, hs⟩ := Option.isSome_iff_exists.mp hdef
  exact ⟨s, hs, planificador_admite_al_aprobado hs⟩

end Corridas

end KernelTraspaso
