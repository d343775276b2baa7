import Tpssoo.KernelLlegadas
import Mathlib.Data.Prod.Lex

/-!
# Dispatches under SRT

The planner gives a free CPU to the process of `cola_ready` with the least estimate, so each of
those that go on waiting still has one of its own.
-/
namespace KernelDespachos

open EnterosC Protocolo KernelEstado KernelFunciones KernelHilos KernelVistas KernelPcbs
open KernelPresentes KernelLargoPlazo KernelSaludos KernelInterrupciones KernelCpus
open KernelEjecucion KernelDesalojo KernelRafagas KernelSalientes KernelSrt KernelLlegadas
open Cobertura Entrelazado

section Estimaciones

variable {c : ConfigKernel} {k : Kernel} {a : Accion}

/-- No estimate is negative. -/
def Positivas (k : Kernel) : Prop := ∀ q p, k.pcbs q = some p → 0 ≤ p.estimacionRafaga

theorem positivas_update {q : ℤ} {x : Option Pcb} (h : Positivas k)
    (hx : ∀ p, x = some p → 0 ≤ p.estimacionRafaga) (q' : ℤ) (p' : Pcb)
    (hp' : Function.update k.pcbs q x q' = some p') : 0 ≤ p'.estimacionRafaga := by
  by_cases heq : q' = q
  · subst heq
    rw [Function.update_self] at hp'
    exact hx p' hp'
  · rw [Function.update_of_ne heq] at hp'
    exact h q' p' hp'

theorem estimacion_actualizar {p : Pcb} (hp : 0 ≤ p.estimacionRafaga) (ahora pc : ℤ)
    (motivo : Motivo) : 0 ≤ (actualizarRafaga c ahora pc motivo p).estimacionRafaga := by
  rw [actualizarRafaga]
  split
  · exact le_max_left _ _
  split
  · dsimp only [calcularSiguienteRafaga]
    split
    · next h => exact h.le
    · exact zero_le_one
  · exact hp

theorem positivas_efecto (hini : 0 ≤ c.estimacionInicial) (h : Positivas k) :
    Positivas ((programa c).efecto k a) := by
  have hsigue : (∀ q, Conserva (vistaPcbs k) (vistaPcbs ((programa c).efecto k a)) q) →
      Positivas ((programa c).efecto k a) := by
    intro hcons q p' hp'
    obtain ⟨p, hp, hest, -⟩ := hcons q p' hp'
    exact (h q p hp).trans_eq hest.symm
  cases a with
  | cortoPlanifica =>
    dsimp only [programa, transicion]
    rcases planificar_casos c k with heq | heq | ⟨pcb, resto, -, -, heq⟩ | ⟨pcb, resto, i, d, -, -,
        heq⟩ <;> rw [heq]
    · exact h
    · exact h
    · exact h
    · intro q' p' hp'
      refine positivas_update h (fun x hx => ?_) q' p' hp'
      obtain ⟨p, hp, rfl⟩ := Option.map_eq_some_iff.mp hx
      exact (h pcb p hp).trans_eq (estimacion_cambiarEstado k.reloj .running p).symm
  | recibeInitProc cpu fd path tamanio absoluto =>
    have hcrear : Positivas (crearPcb c (recibir k fd) path tamanio absoluto) := by
      have hnuevo : ∀ q' p', (crearPcb c (recibir k fd) path tamanio absoluto).pcbs q' = some p' →
          0 ≤ p'.estimacionRafaga := by
        intro q' p' hp'
        rw [crearPcb] at hp'
        split at hp'
        · refine positivas_update h (fun p hp => ?_) q' p' hp'
          cases hp
          exact hini
        · refine positivas_update h (fun p hp => ?_) q' p' hp'
          cases hp
          exact hini
      exact hnuevo
    dsimp only [programa, transicion]
    split <;> exact hcrear
  | recibeRespuesta cpu fd q pc motivo =>
    dsimp only [programa, transicion, recibirRespuesta]
    split
    · exact h
    next pcb hpcb =>
    split
    · exact h
    next p hp =>
    split
    · exact h
    · intro q' p' hp'
      refine positivas_update h (fun x hx => ?_) q' p' hp'
      obtain ⟨p, hp, rfl⟩ := Option.map_eq_some_iff.mp hx
      exact estimacion_actualizar (h pcb p hp) k.reloj pc motivo
  | _ => exact hsigue fun q => conserva_efecto c k (by simp) (by simp) (by simp)

theorem positivas_inicial (hini : 0 ≤ c.estimacionInicial) (path : List Byte) (tamanio : ℤ)
    (absoluto : Option (List Byte)) : Positivas (arranque c path tamanio absoluto).comun := by
  intro q' p' hp'
  dsimp only [arranque] at hp'
  rw [crearPcb] at hp'
  have hsin : Positivas inicial := fun q p hp => by cases hp
  split at hp'
  · refine positivas_update hsin (fun p hp => ?_) q' p' hp'
    cases hp
    exact hini
  · refine positivas_update hsin (fun p hp => ?_) q' p' hp'
    cases hp
    exact hini

end Estimaciones

section Eleccion

variable {c : ConfigKernel} {k : Kernel} {pcb : ℤ} {resto : List ℤ} {cpu : ℕ} {p : Pcb}

/-- The short-term planner gives the CPU to the head of `cola_ready`. -/
structure Despacha (c : ConfigKernel) (k : Kernel) (pcb : ℤ) (resto : List ℤ) (cpu : ℕ) :
    Prop where
  vivos : Vivos k (k.colas .ready)
  orden : ordenReady c k = pcb :: resto
  elegida : cpuPlanificada c k = some cpu
  listada : cpu ∈ k.listaCpus
  libre : (k.cpus cpu).cpuLibre = true
  efecto : ∃ i, planificarCortoPlazo c k = despachado k pcb resto i cpu

/-- What the short-term planner does under SRT, unless it meets a freed PCB. -/
theorem planificar_srt (hsrt : c.algoritmoCortoPlazo = .srt)
    (hdef : (planificarCortoPlazo c k).indefinido = false) :
    (∃ ready n m, ready.Perm (k.colas .ready) ∧ planificarCortoPlazo c k =
      { k with
        colas := Function.update k.colas .ready ready, semProcesosReady := n, semCpuLibre := m }) ∨
    ∃ pcb resto cpu, Despacha c k pcb resto cpu := by
  have higual : k.postReady.postCpuLibre =
      { k with
        colas := Function.update k.colas .ready (k.colas .ready)
        semProcesosReady := k.semProcesosReady + 1, semCpuLibre := k.semCpuLibre + 1 } := by
    rw [Function.update_eq_self]
    rfl
  by_cases hotro : c.algoritmoCortoPlazo = .otro ∨ (k.colas .ready).isEmpty
  · rw [planificarCortoPlazo, if_pos hotro]
    exact Or.inl ⟨_, _, _, .refl _, higual⟩
  rw [planificarCortoPlazo, if_neg hotro] at hdef ⊢
  split
  · next hmuerto =>
      rw [if_pos hmuerto] at hdef
      cases hdef
  next hmuerto =>
  have hvivos : Vivos k (k.colas .ready) := not_not.mp fun h => hmuerto ⟨Or.inr hsrt, h⟩
  split
  · exact Or.inl ⟨_, _, _, .refl _, higual⟩
  next pcb resto horden =>
  cases hlibre : obtenerCpuLibre k with
  | none => exact Or.inl ⟨_, _, _, horden ▸ ordenReady_perm, rfl⟩
  | some x =>
    obtain ⟨i, cpu⟩ := x
    obtain ⟨hcpu, hl⟩ := obtener_mem hlibre
    have helegida : cpuPlanificada c k = some cpu := by
      rw [cpuPlanificada, if_neg hotro, if_neg hmuerto, hlibre]
      rfl
    have hefecto : planificarCortoPlazo c k = despachado k pcb resto i cpu := by
      rw [planificarCortoPlazo, if_neg hotro, if_neg hmuerto]
      split
      · next hnil => cases horden.symm.trans hnil
      next pcb' resto' horden' =>
      cases horden.symm.trans horden'
      rw [hlibre]
      exact enviarPcb_despachado k pcb resto i cpu
    exact Or.inr ⟨pcb, resto, cpu, hvivos, horden, helegida, hcpu, hl, i, hefecto⟩

/-- The key that `cola_ready` is sorted by. -/
def claveReady (k : Kernel) (q : ℤ) : ℚ ×ₗ ℤ :=
  match k.pcbs q with
  | some p => toLex (p.estimacionRafaga, p.pid)
  | none => toLex (0, 0)

/-- The planner takes a process with the least estimate. -/
theorem cabeza_menor (hsrt : c.algoritmoCortoPlazo = .srt) (hvivos : Vivos k (k.colas .ready))
    (h : ordenReady c k = pcb :: resto) {p : Pcb} (hp : k.pcbs pcb = some p) :
    ∀ q ∈ k.colas .ready, ∀ y, k.pcbs q = some y → p.estimacionRafaga ≤ y.estimacionRafaga := by
  rw [ordenReady, hsrt] at h
  have hclave : ∀ x ∈ k.colas .ready, ∀ y ∈ k.colas .ready,
      porPcb k compararPorRafagaEstimada x y = true ↔ claveReady k x < claveReady k y := by
    intro x hx y hy
    obtain ⟨px, hpx⟩ := Option.isSome_iff_exists.mp (hvivos x hx)
    obtain ⟨py, hpy⟩ := Option.isSome_iff_exists.mp (hvivos y hy)
    rw [porPcb, claveReady, claveReady, hpx, hpy]
    simp only [compararPorRafagaEstimada, Bool.or_eq_true, Bool.and_eq_true, decide_eq_true_eq,
      Prod.Lex.toLex_lt_toLex]
  intro q hq y hy
  have hle := listSort_cabeza hclave (congrArg List.head? h) q hq
  rw [claveReady, claveReady, hp, hy] at hle
  rcases Prod.Lex.toLex_le_toLex.mp hle with hlt | ⟨heq, -⟩
  · exact hlt.le
  · exact heq.le

namespace Despacha

variable (h : Despacha c k pcb resto cpu)

include h

theorem perm : (pcb :: resto).Perm (k.colas .ready) := h.orden ▸ ordenReady_perm

theorem mem : pcb ∈ k.colas .ready := h.perm.subset List.mem_cons_self

theorem ready : ((programa c).efecto k .cortoPlanifica).colas .ready = resto := by
  obtain ⟨i, hi⟩ := h.efecto
  dsimp only [programa, transicion]
  rw [hi]
  rfl

theorem lista : ((programa c).efecto k .cortoPlanifica).listaCpus = k.listaCpus := by
  obtain ⟨i, hi⟩ := h.efecto
  dsimp only [programa, transicion]
  rw [hi]
  rfl

theorem cpu_otra {d : ℕ} (hne : d ≠ cpu) :
    ((programa c).efecto k .cortoPlanifica).cpus d = k.cpus d := by
  obtain ⟨i, hi⟩ := h.efecto
  dsimp only [programa, transicion]
  rw [hi]
  exact Function.update_of_ne hne _ _

theorem conserva_otro {q : ℤ} (hne : q ≠ pcb) : Conserva (vistaPcbs k)
    (vistaPcbs ((programa c).efecto k .cortoPlanifica)) q := by
  obtain ⟨i, hi⟩ := h.efecto
  refine .igual ?_
  dsimp only [programa, transicion]
  rw [hi]
  exact Function.update_of_ne hne _ _

/-- The burst of the process starts with the whole of its estimate left. -/
theorem restante (hp : k.pcbs pcb = some p) (hpos : 0 ≤ p.estimacionRafaga)
    (hreloj : EsInt k.reloj) {t : ℚ}
    (ht : Restante ((programa c).efecto k .cortoPlanifica) cpu t) : t = p.estimacionRafaga := by
  obtain ⟨i, hi⟩ := h.efecto
  have hefecto : (programa c).efecto k .cortoPlanifica = despachado k pcb resto i cpu := hi
  obtain ⟨-, q, y, hq, hy, rfl⟩ := ht
  rw [hefecto] at hq hy ⊢
  dsimp only [despachado] at hq hy ⊢
  rw [Function.update_self] at hq
  cases hq
  rw [Function.update_self, hp] at hy
  cases hy
  rw [tiempoRestante, alDespachar]
  dsimp only
  rw [estimacion_cambiarEstado, aInt_eq hreloj, sub_self, Int.cast_zero, sub_zero,
    max_eq_right hpos]

end Despacha

end Eleccion

section Cuentas

variable {α : Type*} [DecidableEq α] {xs : List α} {f g : α → Bool} {x : α}

/-- At most one of a list of different ones stops meeting a property. -/
theorem countP_pierde (hnodup : xs.Nodup) (h : ∀ y ∈ xs, y ≠ x → f y = true → g y = true) :
    xs.countP f ≤ xs.countP g + 1 := by
  have hresto : (xs.erase x).countP f ≤ xs.countP g := by
    refine (List.countP_mono_left fun y hy => ?_).trans (List.erase_sublist.countP_le)
    have hmem := (List.Nodup.mem_erase_iff hnodup).mp hy
    exact h y hmem.2 hmem.1
  by_cases hx : x ∈ xs
  · rw [(List.perm_cons_erase hx).countP_eq f, List.countP_cons]
    split <;> omega
  · rw [List.erase_of_not_mem hx] at hresto
    exact hresto.trans (Nat.le_succ _)

end Cuentas

/-- The planner connects nobody. -/
theorem nombreNuevo_corto {k : Kernel} {n : ℕ} {hilos : List Hilo} :
    NombreNuevo (n, .cortoPlanifica) ⟨k, hilos⟩ := by
  intro fd nombre h
  cases h

section Despacho

variable {c : ConfigKernel} {k : Kernel} {l r : List Hilo}
  (hA : Asignados ⟨k, l ++ (programa c).origen .cortoPlanifica :: r⟩)
  (hI : Enlaces ⟨k, l ++ (programa c).origen .cortoPlanifica :: r⟩)
  (hg : (programa c).guarda k .cortoPlanifica)
  (hdef : ((programa c).efecto k .cortoPlanifica).indefinido = false)
  (hcub : Cubierto ⟨k, l ++ (programa c).origen .cortoPlanifica :: r⟩)

include hA hI hg hdef hcub

/-- The planner gives no CPU. -/
theorem cubierto_sin_despacho {ready : List ℤ} {n m : ℕ} (hn : normal k .cortoPlanifica = true)
    (hperm : ready.Perm (k.colas .ready))
    (h : (programa c).efecto k .cortoPlanifica =
      { k with
        colas := Function.update k.colas .ready ready, semProcesosReady := n, semCpuLibre := m }) :
    Cubierto ⟨(programa c).efecto k .cortoPlanifica,
      l ++ ((programa c).destino k .cortoPlanifica ++ r)⟩ := by
  have hcpus : ((programa c).efecto k .cortoPlanifica).cpus = k.cpus := by rw [h]
  have hlista : ((programa c).efecto k .cortoPlanifica).listaCpus = k.listaCpus := by rw [h]
  have hcons : ∀ q, Conserva (vistaPcbs k)
      (vistaPcbs ((programa c).efecto k .cortoPlanifica)) q := fun q => .igual (by rw [h]; rfl)
  have hlugares := lugares_sigue hA hI hg hn hdef fun cpu _ hl => by rwa [hcpus]
  refine hcub.mono (fun t => ?_) hlugares.1 fun t ht => ?_
  · have hready : ((programa c).efecto k .cortoPlanifica).colas .ready = ready := by
      rw [h]
      dsimp only
      rw [Function.update_self]
    rw [esperan, hready, menores_perm (hperm.filterMap _)]
    exact menores_filterMap (fun q _ x => estimacionDe_conserva (evaluara_sigue (by simp))
      (hcons q)) t
  · obtain ⟨cpu, hcpu, hrest⟩ := List.mem_filterMap.mp ht
    obtain ⟨hcpu, hno⟩ := List.mem_filter.mp hcpu
    have hmem : cpu ∈ k.listaCpus := hlista ▸ hcpu
    exact queda_sigue hA hI hg hdef rfl nombreNuevo_corto hmem (fun hl => by rwa [hcpus])
      (fun q hq => by rwa [hcpus] at hq) (fun q _ _ => hcons q) (of_decide_eq_true hno)
      (restante_eq_some.mp hrest)

omit hcub

variable {pcb : ℤ} {resto : List ℤ} {cpu : ℕ} (h : Despacha c k pcb resto cpu)

include h

/-- Only the CPU that is given was going to be free and is not any more. -/
theorem lugares_despacho : lugares ⟨k, l ++ (programa c).origen .cortoPlanifica :: r⟩ ≤
    lugares ⟨(programa c).efecto k .cortoPlanifica,
      l ++ ((programa c).destino k .cortoPlanifica ++ r)⟩ + 1 := by
  rw [lugares, lugares, h.lista]
  refine countP_pierde (x := cpu) hA.escuchas.lista.nodup fun d hd hne hsal => ?_
  exact decide_eq_true (saliente_sigue hA.escuchas hI hg nombreNuevo_corto rfl
    (fun hl => by rwa [h.cpu_otra hne]) hdef hd (of_decide_eq_true hsal))

/-- The process that starts has its estimate left, and the others no more than before. -/
theorem quedan_despacho {p : Pcb} (hp : k.pcbs pcb = some p) (hpos : 0 ≤ p.estimacionRafaga)
    (hreloj : EsInt k.reloj) : ∀ t ∈ quedan ⟨(programa c).efecto k .cortoPlanifica,
      l ++ ((programa c).destino k .cortoPlanifica ++ r)⟩,
      ∃ u ∈ insert p.estimacionRafaga
        {t | t ∈ quedan ⟨k, l ++ (programa c).origen .cortoPlanifica :: r⟩}, t ≤ u := by
  intro t ht
  obtain ⟨d, hd, hrest⟩ := List.mem_filterMap.mp ht
  obtain ⟨hd, hno⟩ := List.mem_filter.mp hd
  have hrest := restante_eq_some.mp hrest
  by_cases hne : d = cpu
  · subst hne
    exact ⟨p.estimacionRafaga, Set.mem_insert _ _, (h.restante hp hpos hreloj hrest).le⟩
  · have hmem : d ∈ k.listaCpus := h.lista ▸ hd
    have hotro : ∀ q ∈ k.colas .running, q ≠ pcb := by
      rintro q hq rfl
      exact ready_o_running hA.unaVez h.mem hq
    obtain ⟨u, hu, htu⟩ := queda_sigue hA hI hg hdef rfl nombreNuevo_corto hmem
      (fun hl => by rwa [h.cpu_otra hne]) (fun q hq => by rwa [h.cpu_otra hne] at hq)
      (fun q hq _ => h.conserva_otro (hotro q hq)) (of_decide_eq_true hno) hrest
    exact ⟨u, Set.mem_insert_of_mem _ hu, htu⟩

omit hI hg hdef

theorem estimacionDe_despacho : ∀ q ∈ resto, ∀ x,
    estimacionDe ⟨(programa c).efecto k .cortoPlanifica,
      l ++ ((programa c).destino k .cortoPlanifica ++ r)⟩ q = some x →
        estimacionDe ⟨k, l ++ (programa c).origen .cortoPlanifica :: r⟩ q = some x := by
  intro q hq x
  have hnodup : (pcb :: resto).Nodup := h.perm.nodup_iff.mpr (ready_nodup hA.unaVez)
  refine estimacionDe_conserva (evaluara_sigue (by simp)) (h.conserva_otro ?_)
  rintro rfl
  exact (List.nodup_cons.mp hnodup).1 hq

/-- The ones that go on waiting are those that were behind it. -/
theorem espera_despacho (t : ℚ) :
    menores (esperan ⟨(programa c).efecto k .cortoPlanifica,
      l ++ ((programa c).destino k .cortoPlanifica ++ r)⟩) t ≤
      menores (resto.filterMap (estimacionDe ⟨k, l ++ (programa c).origen .cortoPlanifica :: r⟩))
        t := by
  rw [esperan, h.ready]
  exact menores_filterMap (estimacionDe_despacho hA h) t

theorem menor_despacho (hsrt : c.algoritmoCortoPlazo = .srt) {p : Pcb} (hp : k.pcbs pcb = some p) :
    ∀ x ∈ esperan ⟨(programa c).efecto k .cortoPlanifica,
      l ++ ((programa c).destino k .cortoPlanifica ++ r)⟩, p.estimacionRafaga ≤ x := by
  intro x hx
  rw [esperan, h.ready] at hx
  obtain ⟨q, hq, hqx⟩ := List.mem_filterMap.mp hx
  obtain ⟨-, y, hy, rfl⟩ := estimacionDe_eq_some.mp (estimacionDe_despacho hA h q hq x hqx)
  have hmem : q ∈ k.colas .ready := h.perm.subset (List.mem_cons_of_mem _ hq)
  exact cabeza_menor hsrt h.vivos h.orden hp q hmem y hy

include hI hg hdef hcub

/-- The process with the least estimate takes a free CPU. -/
theorem cubierto_despacho (hsrt : c.algoritmoCortoPlazo = .srt) (hpos : Positivas k)
    (hP : Prevista c (l.length, .cortoPlanifica)
      ⟨k, l ++ (programa c).origen .cortoPlanifica :: r⟩) :
    Cubierto ⟨(programa c).efecto k .cortoPlanifica,
      l ++ ((programa c).destino k .cortoPlanifica ++ r)⟩ := by
  obtain ⟨hn, hcabe⟩ := hP
  obtain ⟨p, hp⟩ := Option.isSome_iff_exists.mp (h.vivos pcb h.mem)
  have hespera := espera_despacho hA h
  have hmenor := menor_despacho hA h hsrt hp
  have hlugares := lugares_despacho hA hI hg hdef h
  have hquedan := quedan_despacho hA hI hg hdef h hp (hpos pcb p hp) (of_decide_eq_true hn)
  have hesperaban : ∀ t,
      menores (esperan ⟨k, l ++ (programa c).origen .cortoPlanifica :: r⟩) t =
        menores ((pcb :: resto).filterMap
          (estimacionDe ⟨k, l ++ (programa c).origen .cortoPlanifica :: r⟩)) t := fun t =>
    menores_perm (h.perm.symm.filterMap _)
  have htoma : Cubierta (esperan ⟨(programa c).efecto k .cortoPlanifica,
      l ++ ((programa c).destino k .cortoPlanifica ++ r)⟩)
      (lugares ⟨(programa c).efecto k .cortoPlanifica,
        l ++ ((programa c).destino k .cortoPlanifica ++ r)⟩)
      (insert p.estimacionRafaga
        {t | t ∈ quedan ⟨k, l ++ (programa c).origen .cortoPlanifica :: r⟩}) := by
    by_cases hpend : pcb ∈ (l ++ (programa c).origen .cortoPlanifica :: r).filterMap evaluaraDe
    · -- it takes the CPU before the check that its thread is about to make
      have hllega : pcb ∈ llega c ⟨k, l ++ (programa c).origen .cortoPlanifica :: r⟩
          .cortoPlanifica := by
        rw [llega, h.elegida, h.orden, Option.bind_some, List.head?_cons, Option.mem_def,
          Option.filter_eq_some_iff]
        exact ⟨rfl, decide_eq_true hpend⟩
      refine Cubierta.toma_antes (fun t ht hlt => ?_) hmenor
      rcases hcabe pcb hllega p hp with ⟨hevalua, -⟩ | hsobra
      · cases hevalua
      · have hantes := hsobra t ht hlt
        have hmenos := hespera t
        have hresto : menores (resto.filterMap
            (estimacionDe ⟨k, l ++ (programa c).origen .cortoPlanifica :: r⟩)) t ≤
            menores (esperan ⟨k, l ++ (programa c).origen .cortoPlanifica :: r⟩) t := by
          rw [hesperaban]
          exact menores_sublist ((List.sublist_cons_self _ _).filterMap _)
        omega
    · have hcabeza : estimacionDe ⟨k, l ++ (programa c).origen .cortoPlanifica :: r⟩ pcb =
          some p.estimacionRafaga := estimacionDe_eq_some.mpr ⟨hpend, p, hp, rfl⟩
      refine Cubierta.toma (hcub.mono (fun t => ?_) hlugares fun t ht => ⟨t, ht, le_rfl⟩) hmenor
      rw [hesperaban, List.filterMap_cons_some hcabeza, menores_cons, menores_cons]
      exact Nat.add_le_add_right (hespera t) _
  exact htoma.mono (fun _ => le_rfl) le_rfl hquedan

end Despacho

/-- Every step keeps a CPU for each of the processes that wait. -/
theorem cubierto_paso {c : ConfigKernel} {k : Kernel} {l r : List Hilo} {a : Accion}
    (hsrt : c.algoritmoCortoPlazo = .srt) (hpos : Positivas k)
    (hA : Asignados ⟨k, l ++ (programa c).origen a :: r⟩)
    (hI : Enlaces ⟨k, l ++ (programa c).origen a :: r⟩) (hg : (programa c).guarda k a)
    (hP : Prevista c (l.length, a) ⟨k, l ++ (programa c).origen a :: r⟩)
    (hdef : ((programa c).efecto k a).indefinido = false)
    (hcub : Cubierto ⟨k, l ++ (programa c).origen a :: r⟩) :
    Cubierto ⟨(programa c).efecto k a, l ++ ((programa c).destino k a ++ r)⟩ := by
  by_cases hcorto : a = .cortoPlanifica
  · subst hcorto
    rcases planificar_srt hsrt hdef with ⟨ready, n, m, hperm, h⟩ | ⟨pcb, resto, cpu, h⟩
    · exact cubierto_sin_despacho hA hI hg hdef hcub hP.1 hperm h
    · exact cubierto_despacho hA hI hg hdef hcub h hsrt hpos hP
  · exact cubierto_efecto hsrt hA hI hg hP hdef hcorto hcub

end KernelDespachos
