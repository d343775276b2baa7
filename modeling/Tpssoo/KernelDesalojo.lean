import Tpssoo.KernelFunciones
import Mathlib.Tactic.Linarith

/-!
# Time charged and preemption

The start of a burst is kept in an `int`, so the time charged is exact only while the clock
fits in one. `desalojar_si_es_necesario_srt` skips the idle CPUs when it looks for a victim, and
interrupts the victim whether there is an idle CPU or not.
-/
namespace KernelDesalojo

open EnterosC KernelEstado KernelFunciones

section Tiempos

variable {c : ConfigKernel} {k : Kernel} {cpu : ℕ} {pcb t t' : ℤ} {p : Pcb}

/-- A PCB dispatched at `t` and examined at `t'` is charged `t' - t`: as its burst, in the estimate
that an interruption leaves and in the remaining time that SRT compares. -/
def CobraExacto (c : ConfigKernel) (t t' : ℤ) (p : Pcb) : Prop :=
  (∀ pc motivo, motivo ≠ .interrupcion →
    (actualizarRafaga c t' pc motivo p).rafagaRealAnterior = ((t' - t : ℤ) : ℚ)) ∧
  (∀ pc, (actualizarRafaga c t' pc .interrupcion p).estimacionRafaga =
    max 0 (p.estimacionRafaga - ((t' - t : ℤ) : ℚ))) ∧
  tiempoRestante t' p = max 0 (p.estimacionRafaga - ((t' - t : ℤ) : ℚ))

theorem rafaga_cobrada (t' pc : ℤ) {motivo : Motivo} (h : motivo ≠ .interrupcion) (p : Pcb) :
    (actualizarRafaga c t' pc motivo p).rafagaRealAnterior =
      ((t' - p.tiempoInicioEjecucionCpu : ℤ) : ℚ) := by
  rw [actualizarRafaga, if_neg h]
  split <;> rfl

theorem interrupcion_cobrada (t' pc : ℤ) (p : Pcb) :
    (actualizarRafaga c t' pc .interrupcion p).estimacionRafaga =
      max 0 (p.estimacionRafaga - ((t' - p.tiempoInicioEjecucionCpu : ℤ) : ℚ)) := by
  rw [actualizarRafaga, if_pos rfl]

theorem cobraExacto_iff : CobraExacto c t t' p ↔ p.tiempoInicioEjecucionCpu = t := by
  constructor
  · intro h
    have hrafaga := h.1 0 .exit (by decide)
    rw [rafaga_cobrada t' 0 (by decide)] at hrafaga
    have hresta : t' - p.tiempoInicioEjecucionCpu = t' - t := by exact_mod_cast hrafaga
    omega
  · rintro rfl
    refine ⟨?_, ?_, rfl⟩
    · intro pc motivo h
      exact rafaga_cobrada t' pc h p
    · intro pc
      exact interrupcion_cobrada t' pc p

theorem inicio_enviarPcbACpu (h : k.pcbs pcb = some p) :
    (enviarPcbACpu k cpu pcb).pcbs pcb =
      some { p with tiempoInicioEjecucionCpu := aInt k.reloj } := by
  have hinicio : ∀ k' : Kernel, k'.pcbs = k.pcbs →
      (k'.conPcb pcb fun p => { p with tiempoInicioEjecucionCpu := aInt k.reloj }).pcbs pcb =
        some { p with tiempoInicioEjecucionCpu := aInt k.reloj } := by
    intro k' hk'
    rw [Kernel.conPcb, hk', h]
    exact Function.update_self _ _ _
  rw [enviarPcbACpu]
  apply hinicio
  split <;> rfl

/-- A process dispatched at the clock reading `k.reloj` is charged its exact time at any later
reading exactly when the first reading fits in an `int`. -/
theorem tiempo_exacto_iff (c : ConfigKernel) (k : Kernel) (cpu : ℕ) (pcb t' : ℤ) (p : Pcb)
    (h : k.pcbs pcb = some p) :
    ∃ q, (enviarPcbACpu k cpu pcb).pcbs pcb = some q ∧
      q.estimacionRafaga = p.estimacionRafaga ∧
      (CobraExacto c k.reloj t' q ↔ EsInt k.reloj) := by
  refine ⟨_, inicio_enviarPcbACpu h, rfl, ?_⟩
  rw [cobraExacto_iff]
  constructor
  · intro hreloj
    exact hreloj ▸ esInt_aInt k.reloj
  · exact aInt_eq

/-- A process of one instruction file, created `t` milliseconds after the start of the machine. -/
def recienCreado (t : ℤ) : Kernel :=
  crearPcb ⟨.srt, .fifo, 10, 1, 0⟩ { inicial with reloj := t } [65] 10 none

theorem tiempo_exacto_ejemplo : ∃ q,
    (enviarPcbACpu (recienCreado 1000) 0 0).pcbs 0 = some q ∧
      CobraExacto ⟨.srt, .fifo, 10, 1, 0⟩ 1000 1250 q := by
  obtain ⟨q, hq, -, h⟩ := tiempo_exacto_iff ⟨.srt, .fifo, 10, 1, 0⟩ (recienCreado 1000) 0 0 1250
    _ rfl
  exact ⟨q, hq, h.mpr (by decide)⟩

/-- The machine has been up for 2 ^ 31 milliseconds: the start of the burst is stored as
-2 ^ 31, and 10 milliseconds of CPU are charged as 2 ^ 32 + 10. -/
theorem reloj_truncado : ∃ q,
    (enviarPcbACpu (recienCreado (2 ^ 31)) 0 0).pcbs 0 = some q ∧
      (actualizarRafaga ⟨.srt, .fifo, 10, 1, 0⟩ (2 ^ 31 + 10) 0 .exit q).rafagaRealAnterior =
        2 ^ 32 + 10 ∧
      ¬ CobraExacto ⟨.srt, .fifo, 10, 1, 0⟩ (2 ^ 31) (2 ^ 31 + 10) q := by
  refine ⟨_, inicio_enviarPcbACpu rfl, ?_, ?_⟩
  · decide +kernel
  · rw [cobraExacto_iff]
    decide

end Tiempos

section Desalojo

variable {c : ConfigKernel} {k k' : Kernel} {cpu : ℕ} {e : ℚ} {t : ℚ} {xs : List ℕ}
  {v w : Option (ℕ × ℚ)}

/-- The CPU runs a process with remaining time `t`. -/
def Restante (k : Kernel) (cpu : ℕ) (t : ℚ) : Prop :=
  (k.cpus cpu).cpuLibre = false ∧ ∃ pcb p, (k.cpus cpu).pcbEnEjecucion = some pcb ∧
    k.pcbs pcb = some p ∧ t = tiempoRestante k.reloj p

/-- The process that a busy CPU runs has not been freed. -/
def CpuViva (k : Kernel) (cpu : ℕ) : Prop :=
  (k.cpus cpu).cpuLibre = false → ∀ pcb, (k.cpus cpu).pcbEnEjecucion = some pcb →
    (k.pcbs pcb).isSome

/-- A preemption is useful to a process with estimate `e`. -/
def Necesario (k : Kernel) (e : ℚ) : Prop :=
  (∀ cpu ∈ k.listaCpus, (k.cpus cpu).cpuLibre = false) ∧
    ∃ cpu ∈ k.listaCpus, ∃ t, Restante k cpu t ∧ e < t

/-- One interrupt is sent, to this CPU. -/
def Interrumpida (k k' : Kernel) (cpu : ℕ) : Prop :=
  ∃ fd, (k.cpus cpu).socketInterrupt = some fd ∧
    k' = k.enviar (.interrupt fd)
      (.procesoInterrupcion (k.cpus cpu).socketDispatch (rafagaActual k cpu))

/-- No process runs for longer than the one on this CPU. -/
def Mayor (k : Kernel) (cpu : ℕ) : Prop :=
  ∃ t, Restante k cpu t ∧ ∀ otra ∈ k.listaCpus, ∀ t', Restante k otra t' → t' ≤ t

/-- Nothing is sent when a preemption is of no use, and one interrupt, to a CPU with the greatest
remaining time, when it is. -/
def DesalojaBien (k : Kernel) (e : ℚ) (k' : Kernel) : Prop :=
  (¬ Necesario k e ∧ k' = k) ∨
    (Necesario k e ∧ ∃ cpu ∈ k.listaCpus, Interrumpida k k' cpu ∧ Mayor k cpu)

/-- The first CPU of the list with the greatest remaining time. -/
def PrimeraMayor (k : Kernel) (xs : List ℕ) (cpu : ℕ) (t : ℚ) : Prop :=
  Restante k cpu t ∧ ∃ antes despues, xs = antes ++ cpu :: despues ∧
    (∀ otra ∈ antes, ∀ t', Restante k otra t' → t' < t) ∧
    ∀ otra ∈ despues, ∀ t', Restante k otra t' → t' ≤ t

theorem restante_unico {t' : ℚ} (h : Restante k cpu t) (h' : Restante k cpu t') : t' = t := by
  obtain ⟨-, pcb, p, hpcb, hp, rfl⟩ := h
  obtain ⟨-, pcb', p', hpcb', hp', rfl⟩ := h'
  obtain rfl : pcb = pcb' := Option.some.inj (hpcb.symm.trans hpcb')
  obtain rfl : p = p' := Option.some.inj (hp.symm.trans hp')
  rfl

theorem PrimeraMayor.cotas (h : PrimeraMayor k xs cpu t) :
    cpu ∈ xs ∧ ∀ otra ∈ xs, ∀ t', Restante k otra t' → t' ≤ t := by
  obtain ⟨hcpu, antes, despues, rfl, hantes, hdespues⟩ := h
  refine ⟨by simp, fun otra hotra t' ht' => ?_⟩
  rcases List.mem_append.mp hotra with hotra | hotra
  · exact (hantes otra hotra t' ht').le
  · rcases List.mem_cons.mp hotra with rfl | hotra
    · exact (restante_unico hcpu ht').le
    · exact hdespues otra hotra t' ht'

theorem PrimeraMayor.cons {otra : ℕ} (h : PrimeraMayor k xs cpu t)
    (hotra : ∀ t', Restante k otra t' → t' < t) : PrimeraMayor k (otra :: xs) cpu t := by
  obtain ⟨hcpu, antes, despues, rfl, hantes, hdespues⟩ := h
  refine ⟨hcpu, otra :: antes, despues, rfl, fun x hx => ?_, hdespues⟩
  rcases List.mem_cons.mp hx with rfl | hx
  · exact hotra
  · exact hantes x hx

theorem PrimeraMayor.unica {cpu' : ℕ} {t' : ℚ} (h : PrimeraMayor k xs cpu t)
    (h' : PrimeraMayor k xs cpu' t') : cpu' = cpu := by
  have hle : t ≤ t' := h'.cotas.2 cpu h.cotas.1 t h.1
  have hge : t' ≤ t := h.cotas.2 cpu' h'.cotas.1 t' h'.1
  obtain ⟨hcpu, antes, despues, rfl, hantes, -⟩ := h
  obtain ⟨hcpu', antes', despues', heq, hantes', -⟩ := h'
  rcases List.append_eq_append_iff.mp heq with ⟨l, rfl, hl⟩ | ⟨l, rfl, hl⟩
  · rcases List.cons_eq_append_iff.mp hl with ⟨-, hl⟩ | ⟨l', rfl, -⟩
    · exact (List.cons.inj hl).1
    · exact absurd (hantes' cpu (by simp) t hcpu) (not_lt.mpr hge)
  · rcases List.cons_eq_append_iff.mp hl with ⟨-, hl⟩ | ⟨l', rfl, -⟩
    · exact (List.cons.inj hl).1.symm
    · exact absurd (hantes cpu' (by simp) t' hcpu') (not_lt.mpr hle)

/-- One CPU of the scan: it is idle or runs nothing, or it runs a process and is compared. -/
theorem buscarVictima_cons (h : CpuViva k cpu) :
    ((∀ t, ¬ Restante k cpu t) ∧ buscarVictima k e (cpu :: xs) v = buscarVictima k e xs v) ∨
    ∃ t, Restante k cpu t ∧ buscarVictima k e (cpu :: xs) v =
      buscarVictima k e xs (if e < t ∧ (∀ v' ∈ v, v'.2 < t) then some (cpu, t) else v) := by
  cases hlibre : (k.cpus cpu).cpuLibre with
  | true =>
    refine Or.inl ⟨fun t ht => ?_, ?_⟩
    · rw [ht.1] at hlibre
      cases hlibre
    · rw [buscarVictima, if_pos hlibre]
  | false =>
    cases hpcb : (k.cpus cpu).pcbEnEjecucion with
    | none =>
      refine Or.inl ⟨fun t ht => ?_, ?_⟩
      · obtain ⟨-, pcb, p, hsome, -⟩ := ht
        rw [hsome] at hpcb
        cases hpcb
      · rw [buscarVictima, if_neg (by simp [hlibre]), hpcb]
    | some pcb =>
      obtain ⟨p, hp⟩ := Option.isSome_iff_exists.mp (h hlibre pcb hpcb)
      refine Or.inr ⟨tiempoRestante k.reloj p, ⟨hlibre, pcb, p, hpcb, hp, rfl⟩, ?_⟩
      rw [buscarVictima, if_neg (by simp [hlibre]), hpcb]
      simp only [hp]
      split <;> rfl

/-- The scan stops on the first CPU with the greatest remaining time, if that time is greater than
the estimate and than the remaining time of the victim it started from. -/
theorem buscarVictima_spec (hvivas : ∀ cpu ∈ xs, CpuViva k cpu) :
    ∃ w, buscarVictima k e xs v = some w ∧
      ((w = v ∧ ∀ cpu ∈ xs, ∀ t, Restante k cpu t → t ≤ e ∨ ∃ v' ∈ v, t ≤ v'.2) ∨
        ∃ cpu t, w = some (cpu, t) ∧ PrimeraMayor k xs cpu t ∧ e < t ∧
          ∀ v' ∈ v, v'.2 < t) := by
  induction xs generalizing v with
  | nil => exact ⟨v, rfl, Or.inl ⟨rfl, fun cpu hcpu => absurd hcpu List.not_mem_nil⟩⟩
  | cons cpu xs ih =>
    have ih' := fun {v} => @ih v fun otra h => hvivas otra (List.mem_cons_of_mem cpu h)
    have hcpu : CpuViva k cpu := hvivas cpu List.mem_cons_self
    rcases @buscarVictima_cons k cpu e xs v hcpu with ⟨hnada, hsigue⟩ | ⟨t, ht, hsigue⟩
    · obtain ⟨w, hw, hcaso⟩ := @ih' v
      refine ⟨w, hsigue.trans hw, hcaso.imp ?_ ?_⟩
      · rintro ⟨rfl, hresto⟩
        refine ⟨rfl, fun otra hotra t ht => ?_⟩
        rcases List.mem_cons.mp hotra with rfl | hotra
        · exact absurd ht (hnada t)
        · exact hresto otra hotra t ht
      · rintro ⟨cpu', t', rfl, hmayor, hlt, hv⟩
        exact ⟨cpu', t', rfl, hmayor.cons fun t ht => absurd ht (hnada t), hlt, hv⟩
    · by_cases hgana : e < t ∧ ∀ v' ∈ v, v'.2 < t
      · rw [if_pos hgana] at hsigue
        obtain ⟨w, hw, hcaso⟩ := @ih' (some (cpu, t))
        refine ⟨w, hsigue.trans hw, Or.inr ?_⟩
        rcases hcaso with ⟨rfl, hresto⟩ | ⟨cpu', t', rfl, hmayor, hlt, hv⟩
        · refine ⟨cpu, t, rfl, ⟨ht, [], xs, rfl, by simp, fun otra hotra t' ht' => ?_⟩, hgana⟩
          rcases hresto otra hotra t' ht' with hle | ⟨v', hv', hle⟩
          · exact hle.trans hgana.1.le
          · obtain rfl := Option.some.inj hv'
            exact hle
        · have htt : t < t' := hv (cpu, t) rfl
          refine ⟨cpu', t', rfl, hmayor.cons fun t'' ht'' => ?_, hlt, fun v' hv' => ?_⟩
          · rw [restante_unico ht ht'']
            exact htt
          · exact (hgana.2 v' hv').trans htt
      · rw [if_neg hgana] at hsigue
        have hpierde : t ≤ e ∨ ∃ v' ∈ v, t ≤ v'.2 := by
          by_contra hno
          push Not at hno
          exact hgana hno
        obtain ⟨w, hw, hcaso⟩ := @ih' v
        refine ⟨w, hsigue.trans hw, hcaso.imp ?_ ?_⟩
        · rintro ⟨rfl, hresto⟩
          refine ⟨rfl, fun otra hotra t' ht' => ?_⟩
          rcases List.mem_cons.mp hotra with rfl | hotra
          · rw [restante_unico ht ht']
            exact hpierde
          · exact hresto otra hotra t' ht'
        · rintro ⟨cpu', t', rfl, hmayor, hlt, hv⟩
          refine ⟨cpu', t', rfl, hmayor.cons fun t'' ht'' => ?_, hlt, hv⟩
          rw [restante_unico ht ht'']
          rcases hpierde with hle | ⟨v', hv', hle⟩
          · exact hle.trans_lt hlt
          · exact hle.trans_lt (hv v' hv')

theorem enviar_distinto {a : Canal} {m : Mensaje} : k.enviar a m ≠ k := by
  intro h
  have hlargo : (k.enviados a).length + 1 = (k.enviados a).length := by
    calc (k.enviados a).length + 1 = ((k.enviar a m).enviados a).length := by
          rw [Kernel.enviar_mismo, List.length_append, List.length_singleton]
      _ = (k.enviados a).length := by rw [h]
  omega

/-- What the scan leads to. -/
theorem desalojo_casos (hsrt : c.algoritmoCortoPlazo = .srt) {pcb : ℤ} {p : Pcb}
    (hp : k.pcbs pcb = some p) (hvivas : ∀ cpu ∈ k.listaCpus, CpuViva k cpu) :
    (desalojarSiEsNecesarioSrt c k pcb = k ∧
      ∀ cpu ∈ k.listaCpus, ∀ t, Restante k cpu t → t ≤ p.estimacionRafaga) ∨
    ∃ cpu t, PrimeraMayor k k.listaCpus cpu t ∧ p.estimacionRafaga < t ∧
      desalojarSiEsNecesarioSrt c k pcb = enviarInterrupcionACpu k cpu := by
  obtain ⟨w, hw, hcaso⟩ :=
    buscarVictima_spec (e := p.estimacionRafaga) (v := none) hvivas
  rw [desalojarSiEsNecesarioSrt, if_pos hsrt]
  simp only [hp, hw]
  rcases hcaso with ⟨rfl, hresto⟩ | ⟨cpu, t, rfl, hmayor, hlt, -⟩
  · refine Or.inl ⟨rfl, fun cpu hcpu t ht => ?_⟩
    rcases hresto cpu hcpu t ht with hle | ⟨v', hv', -⟩
    · exact hle
    · cases hv'
  · exact Or.inr ⟨cpu, t, hmayor, hlt, rfl⟩

/-- SRT preempts as it should exactly when no process runs for longer than the estimate of the one
that arrives, or the first CPU with the greatest remaining time has an interrupt connection
just when no CPU is idle. -/
theorem desalojo_srt_iff (c : ConfigKernel) (hsrt : c.algoritmoCortoPlazo = .srt) (k : Kernel)
    (pcb : ℤ) (p : Pcb) (hp : k.pcbs pcb = some p)
    (hvivas : ∀ cpu ∈ k.listaCpus, CpuViva k cpu) :
    DesalojaBien k p.estimacionRafaga (desalojarSiEsNecesarioSrt c k pcb) ↔
      (∀ cpu ∈ k.listaCpus, ∀ t, Restante k cpu t → t ≤ p.estimacionRafaga) ∨
      ∀ cpu t, PrimeraMayor k k.listaCpus cpu t →
        ((k.cpus cpu).socketInterrupt.isSome ↔
          ∀ otra ∈ k.listaCpus, (k.cpus otra).cpuLibre = false) := by
  rcases desalojo_casos hsrt hp hvivas with ⟨hnada, hcortos⟩ | ⟨cpu, t, hmayor, hlt, hcaso⟩
  · refine iff_of_true (Or.inl ⟨?_, hnada⟩) (Or.inl hcortos)
    rintro ⟨-, cpu, hcpu, t, ht, hlt⟩
    exact absurd (hcortos cpu hcpu t ht) (not_le.mpr hlt)
  · have hlargo : ¬ ∀ cpu ∈ k.listaCpus, ∀ t, Restante k cpu t → t ≤ p.estimacionRafaga :=
      fun h => absurd (h cpu hmayor.cotas.1 t hmayor.1) (not_le.mpr hlt)
    have hprimera : (∀ otra t', PrimeraMayor k k.listaCpus otra t' →
        ((k.cpus otra).socketInterrupt.isSome ↔
          ∀ otra ∈ k.listaCpus, (k.cpus otra).cpuLibre = false)) ↔
        ((k.cpus cpu).socketInterrupt.isSome ↔
          ∀ otra ∈ k.listaCpus, (k.cpus otra).cpuLibre = false) := by
      constructor
      · intro h
        exact h cpu t hmayor
      · intro h otra t' hotra
        rw [hmayor.unica hotra]
        exact h
    have hnecesario : Necesario k p.estimacionRafaga ↔
        ∀ otra ∈ k.listaCpus, (k.cpus otra).cpuLibre = false := by
      constructor
      · exact And.left
      · intro h
        exact ⟨h, cpu, hmayor.cotas.1, t, hmayor.1, hlt⟩
    rw [or_iff_right hlargo, hprimera, hcaso, DesalojaBien, hnecesario, enviarInterrupcionACpu]
    cases hfd : (k.cpus cpu).socketInterrupt with
    | none =>
      simp only [Option.isSome_none, Bool.false_eq_true, false_iff, and_true]
      constructor
      · rintro (h | ⟨-, otra, -, ⟨fd, -, henvia⟩, -⟩)
        · exact h
        · exact absurd henvia.symm enviar_distinto
      · exact Or.inl
    | some fd =>
      simp only [Option.isSome_some, true_iff]
      constructor
      · rintro (⟨-, henvia⟩ | ⟨h, -⟩)
        · exact absurd henvia enviar_distinto
        · exact h
      · intro h
        exact Or.inr ⟨h, cpu, hmayor.cotas.1, ⟨fd, hfd, rfl⟩, t, hmayor.1, hmayor.cotas.2⟩

/-- Process 0 runs on the first of two CPUs and has 100 milliseconds left; the second CPU may be
idle. Process 1, with an estimate of 10, has arrived in READY. -/
def dosCpus (libre : Bool) : Kernel :=
  { inicial with
    pcbs := fun pid => some
      { pid := pid
        programCounter := 0
        tamanioProceso := 10
        estado := if pid = 0 then .running else .ready
        pathPseudocodigo := [65]
        estimacionRafaga := if pid = 0 then 100 else 10
        rafagaRealAnterior := 0
        tiempoInicioEjecucionCpu := 0
        metricas := {}
        timestampUltimoCambio := 0
        tiempoBloqueoIo := 0 }
    cpus := fun cpu =>
      if cpu = 0 then ⟨[48], some 4, some 5, false, some 0⟩
      else ⟨[49], some 6, some 7, libre, if libre then none else some 2⟩
    listaCpus := [0, 1]
    totalCpus := 2 }

theorem cpu_dosCpus {libre : Bool} {cpu : ℕ} (h : cpu ∈ (dosCpus libre).listaCpus) :
    cpu = 0 ∨ cpu = 1 := by
  simpa [dosCpus] using h

theorem desalojo_srt_ejemplo : DesalojaBien (dosCpus false) 10
    (desalojarSiEsNecesarioSrt ⟨.srt, .fifo, 10, 1, 0⟩ (dosCpus false) 1) := by
  refine (desalojo_srt_iff ⟨.srt, .fifo, 10, 1, 0⟩ rfl (dosCpus false) 1 _ rfl
    fun cpu _ _ pcb _ => rfl).mpr (Or.inr fun cpu t hcpu => ?_)
  refine iff_of_true ?_ ?_
  · rcases cpu_dosCpus hcpu.cotas.1 with rfl | rfl <;> rfl
  · intro otra hotra
    rcases cpu_dosCpus hotra with rfl | rfl <;> rfl

/-- The second CPU is idle and the process on the first one is interrupted. -/
theorem desaloja_con_cpu_libre :
    (desalojarSiEsNecesarioSrt ⟨.srt, .fifo, 10, 1, 0⟩ (dosCpus true) 1).enviados (.interrupt 5) =
      [.procesoInterrupcion (some 4) 0] ∧
    ¬ DesalojaBien (dosCpus true) 10
      (desalojarSiEsNecesarioSrt ⟨.srt, .fifo, 10, 1, 0⟩ (dosCpus true) 1) := by
  have henvia : (desalojarSiEsNecesarioSrt ⟨.srt, .fifo, 10, 1, 0⟩ (dosCpus true) 1).enviados
      (.interrupt 5) = [.procesoInterrupcion (some 4) 0] := by decide +kernel
  refine ⟨henvia, ?_⟩
  rintro (⟨-, hnada⟩ | ⟨⟨hocupadas, -⟩, -⟩)
  · rw [hnada] at henvia
    cases henvia
  · cases hocupadas 1 (by decide)

end Desalojo

end KernelDesalojo
