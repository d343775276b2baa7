import Tpssoo.Cobertura
import Tpssoo.KernelAsignacion
import Tpssoo.KernelDesalojo
import Tpssoo.KernelRafagas
import Tpssoo.KernelSalientes
import Mathlib.Data.List.MinMax

/-!
# No preemption is missed

Each process of `cola_ready` with a smaller estimate than the remaining time of one that stays in
execution has a CPU of its own among those that will be free. A process that comes to
`cola_ready` keeps it so if it has an interrupt sent to a CPU that was going to stay; the end of
a dump sends none, and the check of SRT may choose a CPU that will be free anyway.
-/
namespace KernelSrt

open EnterosC Protocolo KernelEstado KernelFunciones KernelHilos KernelVistas KernelPcbs
open KernelPresentes KernelLargoPlazo KernelSaludos KernelInterrupciones KernelCpus
open KernelEjecucion
open KernelAsignacion KernelDesalojo KernelRafagas KernelSalientes Cobertura Entrelazado
open Tartamudeo

section Ley

variable (c : ConfigKernel)

/-- The process that a thread has put in `cola_ready` and has not yet checked for a preemption. -/
def evaluaraDe : Hilo → Option ℤ
  | .escuchaCambiaReady _ pcb | .escuchaDesaloja _ pcb => some pcb
  | _ => none

/-- The estimate of a process that has been checked. -/
def estimacionDe (s : Sistema Kernel Hilo) (p : ℤ) : Option ℚ :=
  if p ∈ s.hilos.filterMap evaluaraDe then none
  else (s.comun.pcbs p).map Pcb.estimacionRafaga

/-- The estimates of the processes of `cola_ready` that have been checked. -/
def esperan (s : Sistema Kernel Hilo) : List ℚ :=
  (s.comun.colas .ready).filterMap (estimacionDe s)

/-- How many CPUs will be free. -/
def lugares (s : Sistema Kernel Hilo) : ℕ := s.comun.listaCpus.countP fun cpu => Saliente s cpu

/-- The remaining time of the process that a busy CPU executes. -/
def restante (k : Kernel) (cpu : ℕ) : Option ℚ :=
  if (k.cpus cpu).cpuLibre then none
  else ((k.cpus cpu).pcbEnEjecucion.bind k.pcbs).map (tiempoRestante k.reloj)

/-- The remaining times of the processes that stay in execution. -/
def quedan (s : Sistema Kernel Hilo) : List ℚ :=
  (s.comun.listaCpus.filter fun cpu => ¬ Saliente s cpu).filterMap (restante s.comun)

/-- Among the CPUs that will be free there is one more than are needed below the remaining time of
each process that stays in execution for longer than `e`. -/
def Sobra (s : Sistema Kernel Hilo) (e : ℚ) : Prop :=
  ∀ t ∈ quedan s, e < t → menores (esperan s) t < lugares s

/-- The first of the busy CPUs with the greatest remaining time. -/
def mayor (k : Kernel) : Option ℕ :=
  (k.listaCpus.filter fun cpu => (restante k cpu).isSome).argmax fun cpu =>
    (restante k cpu).getD 0

/-- The CPU with the greatest remaining time will not be free, and an interrupt reaches it. -/
def MayorQueda (s : Sistema Kernel Hilo) : Prop :=
  ∀ cpu ∈ mayor s.comun, ¬ Saliente s cpu ∧ Alcanzable s cpu

/-- The actions that call `desalojar_si_es_necesario_srt`. -/
def evalua : Accion → Bool
  | .largoResuelve _ _ true | .ioTermina _ _ _ _ | .escuchaDesaloja _ _ => true
  | _ => false

/-- The process that starts to wait in `cola_ready`, as one that has been checked or that will not
be, or that leaves it before it has been checked. -/
def llega (s : Sistema Kernel Hilo) : Accion → Option ℤ
  | .largoResuelve pcb _ true => some pcb
  | .ioTermina fd _ _ pid => (grupoDeSocket s.comun fd).bind fun _ => despertado s.comun pid
  | .dumpResuelve pcb true => (s.comun.pcbs pcb).bind fun p => despertado s.comun p.pid
  | .escuchaDesaloja _ pcb => if pcb ∈ s.comun.colas .ready then some pcb else none
  | .cortoPlanifica => (cpuPlanificada c s.comun).bind fun _ =>
    (ordenReady c s.comun).head?.filter fun pcb => pcb ∈ s.hilos.filterMap evaluaraDe
  | _ => none

/-- A process that arrives has an interrupt sent for it to a CPU that was going to stay, or needs
none. -/
def Cabe (e : ℕ × Accion) (s : Sistema Kernel Hilo) : Prop :=
  ∀ pcb ∈ llega c s e.2, ∀ p ∈ s.comun.pcbs pcb,
    evalua e.2 = true ∧ MayorQueda s ∨ Sobra s p.estimacionRafaga

/-- No CPU connects under the name of another one or disconnects, and the clock fits in an `int`
when a process is dispatched. -/
def normal (k : Kernel) : Accion → Bool
  | .cpuRegistra _ nombre => (buscarCpuPorNombre k nombre).isNone
  | .cortoPlanifica => decide (EsInt k.reloj)
  | a => !desconecta a

def Prevista (e : ℕ × Accion) (s : Sistema Kernel Hilo) : Prop :=
  normal s.comun e.2 = true ∧ Cabe c e s

instance (s : Sistema Kernel Hilo) (e : ℚ) : Decidable (Sobra s e) :=
  inferInstanceAs (Decidable (∀ t ∈ quedan s, _))

instance (s : Sistema Kernel Hilo) : Decidable (MayorQueda s) :=
  inferInstanceAs (Decidable (∀ cpu ∈ mayor s.comun, _))

instance (e : ℕ × Accion) (s : Sistema Kernel Hilo) : Decidable (Prevista c e s) :=
  inferInstanceAs (Decidable (_ ∧ ∀ pcb ∈ llega c s e.2, ∀ p ∈ s.comun.pcbs pcb, _))

/-- No thread handles a response, no interrupt is on its way, pending or on its way back, and no
CPU is idle. -/
structure Quieto (s : Sistema Kernel Hilo) : Prop where
  reposo : Reposo s
  sinAvisos : ∀ h ∈ s.hilos, avisado s.comun h = false
  sinRespuestas : ∀ cpu ∈ s.comun.listaCpus, ∀ fd ∈ (s.comun.cpus cpu).socketDispatch,
    (s.comun.entrantes fd).any esInterrumpida = false
  ocupadas : ∀ cpu ∈ s.comun.listaCpus, (s.comun.cpus cpu).cpuLibre = false

/-- The process came to `cola_exec` when the clock was `t` and has not left it. -/
def EnExecDesde (t : ℤ) (p : ℤ) (es : List (ℕ × Accion)) (s₀ : Sistema Kernel Hilo) : Prop :=
  Desde (paso (programa c)) (fun _ s => s.comun.reloj = t ∧ p ∉ s.comun.colas .running)
    (fun _ s => p ∈ s.comun.colas .running) es s₀

/-- No process of `cola_ready` has a smaller estimate than the remaining time of a process in
execution: its estimate less the time since it came to `cola_exec`, and 0 at least. -/
def SinPendientes (es : List (ℕ × Accion)) (s₀ s : Sistema Kernel Hilo) : Prop :=
  ∀ p ∈ s.comun.colas .ready, ∀ x, s.comun.pcbs p = some x →
    ∀ q ∈ s.comun.colas .running, ∀ y, s.comun.pcbs q = some y →
      ∃ t, EnExecDesde c t q es s₀ ∧
        max 0 (y.estimacionRafaga - (s.comun.reloj - t : ℤ)) ≤ x.estimacionRafaga

end Ley

section Victimas

variable {c : ConfigKernel} {k k' : Kernel} {cpu : ℕ} {t e : ℚ} {xs : List ℕ}

theorem restante_eq_some : restante k cpu = some t ↔ Restante k cpu t := by
  rw [restante, Restante]
  constructor
  · intro h
    split at h
    · cases h
    · next hlibre =>
        obtain ⟨p, hp, rfl⟩ := Option.map_eq_some_iff.mp h
        obtain ⟨pcb, hpcb, hp⟩ := Option.bind_eq_some_iff.mp hp
        exact ⟨Bool.eq_false_iff.mpr hlibre, pcb, p, hpcb, hp, rfl⟩
  · rintro ⟨hlibre, pcb, p, hpcb, hp, rfl⟩
    rw [hlibre, hpcb, Option.bind_some, hp]
    rfl

/-- The remaining times depend on the CPUs, the clock and the bursts of the processes. -/
theorem restante_congr (hcpus : k'.cpus = k.cpus) (hreloj : k'.reloj = k.reloj)
    (hpcbs : ∀ q, (k'.pcbs q).map (tiempoRestante k.reloj) =
      (k.pcbs q).map (tiempoRestante k.reloj)) : restante k' = restante k := by
  funext cpu
  rw [restante, restante, hcpus, hreloj]
  cases (k.cpus cpu).pcbEnEjecucion with
  | none => rfl
  | some q =>
    rw [Option.bind_some, Option.bind_some, hpcbs]

/-- The scan ends when no process in execution has been freed. -/
theorem vivas_de_buscar {v w : Option (ℕ × ℚ)} (h : buscarVictima k e xs v = some w) :
    ∀ cpu ∈ xs, CpuViva k cpu := by
  induction xs generalizing v with
  | nil => exact fun cpu hcpu => absurd hcpu List.not_mem_nil
  | cons d xs ih =>
    have hresto : (∃ v', buscarVictima k e xs v' = some w) ∧ CpuViva k d := by
      rw [buscarVictima] at h
      split at h
      · next hlibre =>
          refine ⟨⟨v, h⟩, fun hno => ?_⟩
          rw [hno] at hlibre
          cases hlibre
      · split at h
        · next hpcb =>
            refine ⟨⟨v, h⟩, fun _ q hq => ?_⟩
            cases hpcb.symm.trans hq
        · next pcb hpcb =>
            split at h
            · cases h
            · next p hp =>
                refine ⟨?_, fun _ q hq => ?_⟩
                · dsimp only at h
                  split at h <;> exact ⟨_, h⟩
                · cases hpcb.symm.trans hq
                  rw [hp]
                  rfl
    intro cpu hcpu
    rcases List.mem_cons.mp hcpu with rfl | hcpu
    · exact hresto.2
    · obtain ⟨v', hv'⟩ := hresto.1
      exact ih hv' cpu hcpu

/-- The victim of SRT is the first of the busy CPUs with the greatest remaining time. -/
theorem mayor_de_primera (h : PrimeraMayor k k.listaCpus cpu t) : mayor k = some cpu := by
  obtain ⟨hcpu, antes, despues, hlista, hantes, hdespues⟩ := h
  have hvalor : ∀ {d u}, Restante k d u → (restante k d).getD 0 = u := by
    intro d u hd
    rw [restante_eq_some.mpr hd]
    rfl
  have hsome : ∀ d, (restante k d).isSome = true → ∃ u, Restante k d u := fun d hd =>
    (Option.isSome_iff_exists.mp hd).imp fun u hu => restante_eq_some.mp hu
  have hfiltro : k.listaCpus.filter (fun cpu => (restante k cpu).isSome) =
      antes.filter (fun cpu => (restante k cpu).isSome) ++
        cpu :: despues.filter fun cpu => (restante k cpu).isSome := by
    rw [hlista, List.filter_append, List.filter_cons_of_pos]
    exact Option.isSome_iff_exists.mpr ⟨t, restante_eq_some.mpr hcpu⟩
  have hfuera : ∀ d ∈ antes.filter (fun cpu => (restante k cpu).isSome),
      (restante k d).getD 0 < (restante k cpu).getD 0 := by
    intro d hd
    obtain ⟨hd, hocupada⟩ := List.mem_filter.mp hd
    obtain ⟨u, hu⟩ := hsome d hocupada
    rw [hvalor hu, hvalor hcpu]
    exact hantes d hd u hu
  rw [mayor, hfiltro]
  refine List.mem_argmax_iff.mpr ⟨by simp, fun d hd => ?_, fun d hd hle => ?_⟩
  · rcases List.mem_append.mp hd with hd | hd
    · exact (hfuera d hd).le
    · rcases List.mem_cons.mp hd with rfl | hd
      · exact le_rfl
      · obtain ⟨hd, hocupada⟩ := List.mem_filter.mp hd
        obtain ⟨u, hu⟩ := hsome d hocupada
        rw [hvalor hu, hvalor hcpu]
        exact hdespues d hd u hu
  · have hno : ∀ d, (restante k cpu).getD 0 ≤ (restante k d).getD 0 →
        d ∉ antes.filter fun cpu => (restante k cpu).isSome := fun d hle hmem =>
      absurd (hfuera d hmem) (not_lt.mpr hle)
    rw [List.idxOf_append_of_notMem (hno cpu le_rfl), List.idxOf_cons_self,
      List.idxOf_append_of_notMem (hno d hle)]
    exact Nat.add_le_add_left (Nat.zero_le _) _

/-- The check of SRT interrupts the first of the CPUs with the greatest remaining time, when that
time is greater than the estimate. -/
theorem desalojar_mayor (hsrt : c.algoritmoCortoPlazo = .srt) {pcb : ℤ} {p : Pcb}
    (hp : k.pcbs pcb = some p)
    (hdef : (desalojarSiEsNecesarioSrt c k pcb).indefinido = false) :
    (∀ cpu ∈ k.listaCpus, ∀ t, restante k cpu = some t → t ≤ p.estimacionRafaga) ∨
      ∃ cpu ∈ mayor k, cpu ∈ k.listaCpus ∧
        desalojarSiEsNecesarioSrt c k pcb = enviarInterrupcionACpu k cpu := by
  have hvivas : ∀ cpu ∈ k.listaCpus, CpuViva k cpu := by
    cases hw : buscarVictima k p.estimacionRafaga k.listaCpus none with
    | none =>
      rw [desalojarSiEsNecesarioSrt, if_pos hsrt, hp] at hdef
      dsimp only at hdef
      rw [hw] at hdef
      cases hdef
    | some w => exact vivas_de_buscar hw
  rcases desalojo_casos hsrt hp hvivas with ⟨-, hcortos⟩ | ⟨cpu, t, hmayor, -, h⟩
  · exact Or.inl fun cpu hcpu t ht => hcortos cpu hcpu t (restante_eq_some.mp ht)
  · exact Or.inr ⟨cpu, mayor_de_primera hmayor, hmayor.cotas.1, h⟩

end Victimas

section Efectos

variable {c : ConfigKernel} {k : Kernel} {a : Accion} {cpu n : ℕ} {hilos : List Hilo}

/-- The clock does not go back. -/
theorem reloj_efecto : k.reloj ≤ ((programa c).efecto k a).reloj := by
  have hdesaloja : ∀ (k' : Kernel) pcb, (desalojarSiEsNecesarioSrt c k' pcb).reloj = k'.reloj := by
    intro k' pcb
    obtain ⟨_, _, h, -⟩ := desalojar_eq c k' pcb
    rw [h]
  have hcrear : ∀ (k' : Kernel) path tamanio absoluto,
      (crearPcb c k' path tamanio absoluto).reloj = k'.reloj := by
    intro k' path tamanio absoluto
    rw [crearPcb]
    split <;> rfl
  cases a with
  | pasaTiempo ms => exact Int.le_add_of_nonneg_right (Int.natCast_nonneg ms)
  | largoElige =>
    refine le_of_eq ?_
    dsimp only [programa, transicion, elegirCandidato]
    split <;> rfl
  | largoEnvia pcb susp | gestorEnvia pcb | dumpEnvia pcb =>
    refine le_of_eq ?_
    dsimp only [programa, transicion]
    split <;> rfl
  | largoResuelve pcb susp ok =>
    refine le_of_eq ?_
    cases ok with
    | false => rfl
    | true =>
      obtain ⟨_, _, h, -⟩ := admitir_eq c k pcb susp
      exact (congrArg Kernel.reloj h).symm
  | cortoPlanifica =>
    refine le_of_eq ?_
    dsimp only [programa, transicion]
    rcases planificar_casos c k with h | h | ⟨pcb, resto, -, -, h⟩ | ⟨pcb, resto, i, d, -, -,
        h⟩ <;> rw [h] <;> rfl
  | gestorToma =>
    refine le_of_eq ?_
    dsimp only [programa, transicion]
    split <;> rfl
  | gestorLibera pcb ok | suspensionVence pid desde bloqueo | suspensionResuelve ok
  | interruptRegistra fd nombre | escuchaBloquea d pcb dispositivo duracion
  | escuchaRevisa d | recibeOtro d fd =>
    refine le_of_eq ?_
    dsimp only [programa, transicion]
    repeat' split
    all_goals rfl
  | dumpResuelve pcb ok =>
    obtain ⟨_, _, _, _, _, _, h⟩ := resolverDump_eq k pcb ok
    refine le_of_eq ?_
    dsimp only [programa, transicion]
    rw [h]
  | cpuRegistra fd nombre =>
    refine le_of_eq ?_
    dsimp only [programa, transicion, registrarCpu]
    split <;> rfl
  | recibeInitProc d fd path tamanio absoluto =>
    refine le_of_eq ?_
    dsimp only [programa, transicion]
    split <;> exact (hcrear (recibir k fd) path tamanio absoluto).symm
  | recibeRespuesta d fd q pc motivo =>
    refine le_of_eq ?_
    dsimp only [programa, transicion, recibirRespuesta]
    repeat' split
    all_goals rfl
  | escuchaEncola d pcb grupo duracion =>
    refine le_of_eq ?_
    dsimp only [programa, transicion, encolarSolicitud]
    split <;> rfl
  | escuchaDesaloja d pcb => exact (hdesaloja k pcb).ge
  | ioRegistra fd nombre =>
    refine le_of_eq ?_
    dsimp only [programa, transicion, registrarInstancia]
    split <;> rfl
  | ioDespacha grupo =>
    refine le_of_eq ?_
    dsimp only [programa, transicion, despacharGrupo]
    split <;> rfl
  | ioTermina fd nombre terminadas pid =>
    refine le_of_eq ?_
    dsimp only [programa, transicion, manejarFinIo]
    split
    · rfl
    · obtain ⟨_, _, _, _, _, _, h, -⟩ := despertarDeIo_eq c k pid
      rw [guardarGrupo, h]
  | ioDesconecta fd nombre terminadas =>
    refine le_of_eq ?_
    dsimp only [programa, transicion, manejarDesconexionIo]
    split
    · rfl
    split
    · rfl
    split
    · rfl
    split
    · next g _ _ =>
        obtain ⟨_, _, h⟩ := vaciarEspera_eq k g.colaEsperaCompartida
        rw [h]
    · rfl
  | _ => exact le_rfl

/-- The actions that change `cola_ready`. -/
def cambiaReady : Accion → Bool
  | .largoResuelve _ _ true | .cortoPlanifica | .dumpResuelve _ true | .escuchaAgregaReady _ _
  | .ioTermina _ _ _ _ => true
  | _ => false

theorem ready_efecto (ha : cambiaReady a = false) :
    ((programa c).efecto k a).colas .ready = k.colas .ready := by
  have hbloqueado : ∀ (k' : Kernel) q, (quitarBloqueado k' q).colas .ready =
      k'.colas .ready := by
    intro k' q
    rw [quitarBloqueado]
    repeat' split
    all_goals rfl
  have hvaciar : ∀ xs (k' : Kernel), (vaciarEspera xs k').1.colas .ready = k'.colas .ready := by
    intro xs
    induction xs with
    | nil => exact fun k' => rfl
    | cons sol xs ih =>
      intro k'
      rw [vaciarEspera]
      split
      · rfl
      · exact ih k'
      · exact (ih _).trans (hbloqueado k' _)
  cases a with
  | largoResuelve pcb susp ok =>
    cases ok with
    | false => rfl
    | true => cases ha
  | cortoPlanifica | escuchaAgregaReady _ _ | ioTermina _ _ _ _ => cases ha
  | largoElige =>
    dsimp only [programa, transicion, elegirCandidato]
    split
    · rfl
    · refine Function.update_of_ne ?_ _ _
      rw [colaAAdmitir]
      split <;> decide
  | largoEnvia pcb susp | gestorEnvia pcb | dumpEnvia pcb =>
    dsimp only [programa, transicion]
    split <;> rfl
  | gestorToma =>
    dsimp only [programa, transicion]
    split <;> rfl
  | gestorLibera pcb ok | suspensionVence pid desde bloqueo | suspensionResuelve ok
  | interruptRegistra fd nombre | escuchaBloquea d pcb dispositivo duracion
  | escuchaRevisa d | recibeOtro d fd =>
    dsimp only [programa, transicion]
    repeat' split
    all_goals rfl
  | dumpResuelve pcb ok =>
    cases ok with
    | true => cases ha
    | false =>
      dsimp only [programa, transicion, resolverDump]
      split
      · rfl
      split
      · next h => cases h
      split
      · rfl
      · rfl
      · exact hbloqueado k _
  | cpuRegistra fd nombre =>
    dsimp only [programa, transicion, registrarCpu]
    split <;> rfl
  | recibeInitProc d fd path tamanio absoluto =>
    obtain ⟨e, he⟩ := initProc_igual (c := c) (k := k) d fd path tamanio absoluto
    rw [he, crearPcb]
    split <;> rfl
  | recibeRespuesta d fd q pc motivo =>
    dsimp only [programa, transicion, recibirRespuesta]
    repeat' split
    all_goals rfl
  | escuchaEncola d pcb grupo duracion =>
    dsimp only [programa, transicion, encolarSolicitud]
    split <;> rfl
  | escuchaDesaloja d pcb => exact congrFun (colas_desalojar pcb) .ready
  | ioRegistra fd nombre =>
    dsimp only [programa, transicion, registrarInstancia]
    split <;> rfl
  | ioDespacha grupo =>
    dsimp only [programa, transicion, despacharGrupo]
    split <;> rfl
  | ioDesconecta fd nombre terminadas =>
    dsimp only [programa, transicion, manejarDesconexionIo]
    split
    · rfl
    split
    · rfl
    split
    · rfl
    split
    · exact hvaciar _ k
    · rfl
  | _ => rfl

/-- The threads that are to check a process. -/
theorem evaluara_destino (ha : ∀ d pcb, a ≠ .escuchaAgregaReady d pcb ∧
    a ≠ .escuchaDesaloja d pcb) :
    ((programa c).destino k a).filterMap evaluaraDe =
      [(programa c).origen a].filterMap evaluaraDe := by
  cases a with
  | escuchaAgregaReady d pcb => exact absurd rfl (ha d pcb).1
  | escuchaDesaloja d pcb => exact absurd rfl (ha d pcb).2
  | recibeRespuesta d fd q pc motivo =>
    dsimp only [programa, transicion, trasRespuesta]
    repeat' split
    all_goals cases motivo <;> rfl
  | _ =>
    dsimp only [programa, transicion, trasDump]
    repeat' split
    all_goals rfl

/-- CPUs are only added to the list, idle. -/
theorem lista_efecto (hdes : desconecta a = false) (hS : NombreNuevo (n, a) ⟨k, hilos⟩) :
    ((programa c).efecto k a).listaCpus = k.listaCpus ∨
      ∃ d, ((programa c).efecto k a).listaCpus = k.listaCpus ++ [d] ∧
        (((programa c).efecto k a).cpus d).cpuLibre = true := by
  cases ha : reasigna a with
  | false => exact Or.inl (mismas_efecto ha).lista
  | true =>
    cases a with
    | cortoPlanifica =>
      left
      dsimp only [programa, transicion]
      rcases planificar_casos c k with h | h | ⟨pcb, resto, -, -, h⟩ | ⟨pcb, resto, i, d, -, -,
          h⟩ <;> rw [h] <;> rfl
    | cpuRegistra fd nombre =>
      right
      refine ⟨k.totalCpus, ?_⟩
      dsimp only [programa, transicion]
      rw [registrar_nueva fd (hS fd nombre rfl)]
      dsimp only
      rw [Function.update_self]
      exact ⟨rfl, rfl⟩
    | escuchaLibera d => exact Or.inl rfl
    | escuchaQuita _ | escuchaFinalizaTomado _ _ | escuchaCierra _ => cases hdes
    | _ => cases ha

/-- Only the short-term planner gives a process to a CPU. -/
theorem en_efecto (hcorto : a ≠ .cortoPlanifica) (hdes : desconecta a = false)
    (hS : NombreNuevo (n, a) ⟨k, hilos⟩) {q : ℤ}
    (h : (((programa c).efecto k a).cpus cpu).pcbEnEjecucion = some q) :
    (k.cpus cpu).pcbEnEjecucion = some q := by
  cases ha : reasigna a with
  | false => exact ((mismas_efecto ha).en cpu).symm.trans h
  | true =>
    cases a with
    | cortoPlanifica => exact absurd rfl hcorto
    | cpuRegistra fd nombre =>
      dsimp only [programa, transicion] at h
      rw [registrar_nueva fd (hS fd nombre rfl)] at h
      dsimp only at h
      by_cases heq : cpu = k.totalCpus
      · subst heq
        rw [Function.update_self] at h
        cases h
      · rwa [Function.update_of_ne heq] at h
    | escuchaLibera d =>
      dsimp only [programa, transicion, Kernel.postCpuLibre, Kernel.conCpu] at h
      by_cases heq : cpu = d
      · subst heq
        rw [Function.update_self] at h
        cases h
      · rwa [Function.update_of_ne heq] at h
    | escuchaQuita _ | escuchaFinalizaTomado _ _ | escuchaCierra _ => cases hdes
    | _ => cases ha

end Efectos

section Cuentas

variable {c : ConfigKernel} {k : Kernel} {l r : List Hilo} {a : Accion} {cpu : ℕ} {p : ℤ}

/-- One more of a list meets a property that those that met the other one meet. -/
theorem countP_gana {α : Type*} [DecidableEq α] {xs : List α} {f g : α → Bool} {x : α}
    (h : ∀ y ∈ xs, f y = true → g y = true) (hx : x ∈ xs) (hf : f x = false) (hg : g x = true) :
    xs.countP f + 1 ≤ xs.countP g := by
  have hperm := List.perm_cons_erase hx
  rw [hperm.countP_eq f, hperm.countP_eq g, List.countP_cons_of_neg (by rw [hf]; decide),
    List.countP_cons_of_pos hg]
  exact Nat.add_le_add_right
    (List.countP_mono_left fun y hy => h y (List.mem_of_mem_erase hy)) 1

theorem peso_de_ready (hp : p ∈ k.colas .ready) : 0 < peso k p := by
  have hcuenta : 0 < (k.colas .ready).count p := List.count_pos_iff.mpr hp
  rw [peso]
  omega

theorem peso_de_running (hp : p ∈ k.colas .running) : 0 < peso k p := by
  have hcuenta : 0 < (k.colas .running).count p := List.count_pos_iff.mpr hp
  rw [peso]
  omega

/-- No process waits for a CPU and executes. -/
theorem ready_o_running {s : Sistema Kernel Hilo} (hU : UnaVez s)
    (hr : p ∈ s.comun.colas .ready) : p ∉ s.comun.colas .running := by
  intro hx
  have huno := hU.todos p
  have hready : 0 < (s.comun.colas .ready).count p := List.count_pos_iff.mpr hr
  have hrunning : 0 < (s.comun.colas .running).count p := List.count_pos_iff.mpr hx
  rw [peso] at huno
  omega

theorem ready_nodup {s : Sistema Kernel Hilo} (hU : UnaVez s) :
    (s.comun.colas .ready).Nodup := by
  refine List.nodup_iff_count.mpr fun p => ?_
  have huno := hU.todos p
  rw [peso] at huno
  omega

theorem no_ultimo {s : Sistema Kernel Hilo} (hU : UnaVez s) (hp : 0 < peso s.comun p) :
    p ≠ s.comun.ultimoPid := by
  rintro rfl
  have hcero := hU.nuevos s.comun.ultimoPid le_rfl
  omega

/-- A CPU that stays executes its process. -/
theorem ejecuta_de_queda {s : Sistema Kernel Hilo} (hno : ¬ Saliente s cpu)
    (hq : (s.comun.cpus cpu).pcbEnEjecucion = some p) : Ejecuta s cpu p := by
  refine ⟨hq, fun hmem => hno ?_⟩
  obtain ⟨h, hh, hm⟩ := List.mem_filterMap.mp hmem
  exact Or.inr (Or.inl ⟨h, hh, hm⟩)

/-- The estimate of a process that waits for a CPU does not change. -/
theorem ready_conserva (hA : Asignados ⟨k, l ++ (programa c).origen a :: r⟩)
    (hcorto : a ≠ .cortoPlanifica) (hp : p ∈ k.colas .ready) :
    Conserva (vistaPcbs k) (vistaPcbs ((programa c).efecto k a)) p := by
  refine conserva_efecto c k hcorto (fun _ _ _ _ _ _ => no_ultimo hA.unaVez (peso_de_ready hp)) ?_
  intro cpu fd q pc motivo ha hq
  exact ready_o_running hA.unaVez hp (respuesta_en_exec hA cpu fd q pc motivo p ha hq)

theorem nuevo_de_normal {n : ℕ} {hilos : List Hilo} (h : normal k a = true) :
    NombreNuevo (n, a) ⟨k, hilos⟩ := by
  rintro fd nombre rfl
  exact Option.isNone_iff_eq_none.mp h

theorem desconecta_de_normal (h : normal k a = true) : desconecta a = false := by
  cases a with
  | moduloAborta _ _ | moduloAbortaInterrupt _ _ | moduloDesconecta _ | recibeNull _ _
  | escuchaQuita _ | escuchaRevisa _ | escuchaFinalizaTomado _ _ | escuchaCierra _ => cases h
  | _ => rfl

/-- Without a dispatch the idle CPUs stay idle. -/
theorem libres_siguen (hA : Asignados ⟨k, l ++ (programa c).origen a :: r⟩)
    (hn : normal k a = true) (hcorto : a ≠ .cortoPlanifica) : ∀ cpu ∈ k.listaCpus,
      (k.cpus cpu).cpuLibre = true → (((programa c).efecto k a).cpus cpu).cpuLibre = true := by
  intro cpu hcpu
  have hS : NombreNuevo (l.length, a) ⟨k, l ++ (programa c).origen a :: r⟩ := nuevo_de_normal hn
  exact libre_sigue hcorto (desconecta_de_normal hn) hS (hA.escuchas.lista.libres cpu hcpu).1

end Cuentas

section Lugares

variable {c : ConfigKernel} {k : Kernel} {l r : List Hilo} {a : Accion} {cpu : ℕ}
  (hA : Asignados ⟨k, l ++ (programa c).origen a :: r⟩)
  (hI : Enlaces ⟨k, l ++ (programa c).origen a :: r⟩) (hg : (programa c).guarda k a)
  (hn : normal k a = true) (hdef : ((programa c).efecto k a).indefinido = false)

include hA hI hg hn hdef

/-- As many CPUs will be free, and one more when one that was going to stay will be. -/
theorem lugares_sigue
    (hlibre : ∀ cpu ∈ k.listaCpus, (k.cpus cpu).cpuLibre = true →
      (((programa c).efecto k a).cpus cpu).cpuLibre = true) :
    lugares ⟨k, l ++ (programa c).origen a :: r⟩ ≤
      lugares ⟨(programa c).efecto k a, l ++ ((programa c).destino k a ++ r)⟩ ∧
    (∀ cpu ∈ k.listaCpus, ¬ Saliente ⟨k, l ++ (programa c).origen a :: r⟩ cpu →
      Saliente ⟨(programa c).efecto k a, l ++ ((programa c).destino k a ++ r)⟩ cpu →
      lugares ⟨k, l ++ (programa c).origen a :: r⟩ + 1 ≤
        lugares ⟨(programa c).efecto k a, l ++ ((programa c).destino k a ++ r)⟩) := by
  have hdes := desconecta_de_normal hn
  have hS : NombreNuevo (l.length, a) ⟨k, l ++ (programa c).origen a :: r⟩ := nuevo_de_normal hn
  have hsigue : ∀ cpu ∈ k.listaCpus, decide (Saliente ⟨k, l ++ (programa c).origen a :: r⟩ cpu) =
      true → decide (Saliente ⟨(programa c).efecto k a, l ++ ((programa c).destino k a ++ r)⟩
        cpu) = true := by
    intro cpu hcpu h
    exact decide_eq_true (saliente_sigue hA.escuchas hI hg hS hdes (hlibre cpu hcpu) hdef hcpu
      (of_decide_eq_true h))
  have hlista : k.listaCpus.countP (fun cpu => decide (Saliente ⟨(programa c).efecto k a,
      l ++ ((programa c).destino k a ++ r)⟩ cpu)) ≤
      lugares ⟨(programa c).efecto k a, l ++ ((programa c).destino k a ++ r)⟩ := by
    rw [lugares]
    rcases lista_efecto (c := c) hdes hS with h | ⟨d, h, -⟩
    · exact (congrArg (List.countP _) h).ge
    · refine List.Sublist.countP_le ?_
      dsimp only
      rw [h]
      exact List.sublist_append_left _ _
  refine ⟨(List.countP_mono_left hsigue).trans hlista, fun cpu hcpu hno hsi => ?_⟩
  exact (countP_gana hsigue hcpu (decide_eq_false hno) (decide_eq_true hsi)).trans hlista

omit hn in
/-- A CPU that stays was going to stay with its process, and has no more time left. -/
theorem queda_sigue (hdes : desconecta a = false)
    (hS : NombreNuevo (l.length, a) ⟨k, l ++ (programa c).origen a :: r⟩)
    (hmem : cpu ∈ k.listaCpus)
    (hlibre : (k.cpus cpu).cpuLibre = true → (((programa c).efecto k a).cpus cpu).cpuLibre = true)
    (hen : ∀ q, (((programa c).efecto k a).cpus cpu).pcbEnEjecucion = some q →
      (k.cpus cpu).pcbEnEjecucion = some q)
    (hcons : ∀ q ∈ k.colas .running, Ejecuta ⟨k, l ++ (programa c).origen a :: r⟩ cpu q →
      Conserva (vistaPcbs k) (vistaPcbs ((programa c).efecto k a)) q)
    (hno : ¬ Saliente ⟨(programa c).efecto k a, l ++ ((programa c).destino k a ++ r)⟩ cpu)
    {t : ℚ} (ht : Restante ((programa c).efecto k a) cpu t) :
    ∃ u ∈ quedan ⟨k, l ++ (programa c).origen a :: r⟩, t ≤ u := by
  obtain ⟨-, q, y', hq, hy', rfl⟩ := ht
  have hantes : ¬ Saliente ⟨k, l ++ (programa c).origen a :: r⟩ cpu := fun h =>
    hno (saliente_sigue hA.escuchas hI hg hS hdes hlibre hdef hmem h)
  have hej : Ejecuta ⟨k, l ++ (programa c).origen a :: r⟩ cpu q :=
      ejecuta_de_queda hantes (hen q hq)
  obtain ⟨y, hy, hest, hini⟩ := hcons q (hA.ejecucion.enCola cpu q hej) hej y' hy'
  have hlibre₀ : (k.cpus cpu).cpuLibre = false :=
    Bool.eq_false_iff.mpr fun h => hantes (Or.inl h)
  refine ⟨tiempoRestante k.reloj y, List.mem_filterMap.mpr ⟨cpu, List.mem_filter.mpr
    ⟨hmem, decide_eq_true hantes⟩, restante_eq_some.mpr ⟨hlibre₀, q, y, hen q hq, hy, rfl⟩⟩, ?_⟩
  have hreloj : (k.reloj : ℚ) ≤ ((programa c).efecto k a).reloj := by
    exact_mod_cast reloj_efecto
  rw [tiempoRestante, tiempoRestante, hest, hini]
  refine max_le_max le_rfl ?_
  push_cast
  linarith

/-- Those that stay are some of those that stayed, with no more time left. -/
theorem quedan_sigue (hcorto : a ≠ .cortoPlanifica) :
    ∀ t ∈ quedan ⟨(programa c).efecto k a, l ++ ((programa c).destino k a ++ r)⟩,
      ∃ u ∈ quedan ⟨k, l ++ (programa c).origen a :: r⟩, t ≤ u := by
  have hdes := desconecta_de_normal hn
  have hS : NombreNuevo (l.length, a) ⟨k, l ++ (programa c).origen a :: r⟩ := nuevo_de_normal hn
  intro t ht
  obtain ⟨cpu, hcpu, hrest⟩ := List.mem_filterMap.mp ht
  obtain ⟨hcpu, hno⟩ := List.mem_filter.mp hcpu
  have hno := of_decide_eq_true hno
  have hrest := restante_eq_some.mp hrest
  have hmem : cpu ∈ k.listaCpus := by
    rcases lista_efecto (c := c) hdes hS with h | ⟨d, h, hlibre⟩
    · exact h ▸ hcpu
    · rcases List.mem_append.mp (h ▸ hcpu) with hcpu | hcpu
      · exact hcpu
      · rw [List.mem_singleton.mp hcpu] at hrest
        cases hlibre.symm.trans hrest.1
  refine queda_sigue hA hI hg hdef hdes hS hmem (libres_siguen hA hn hcorto cpu hmem)
    (fun q => en_efecto hcorto hdes hS) (fun q hrunning hej => ?_) hno hrest
  refine conserva_efecto c k hcorto
    (fun _ _ _ _ _ _ => no_ultimo hA.unaVez (peso_de_running hrunning)) ?_
  rintro d fd pid pc motivo rfl hd
  -- the response would be that of this CPU, which a thread would be handling
  have hsin := sin_manejar d hA.escuchas rfl
  have hejd : Ejecuta ⟨k, l ++ (programa c).origen (.recibeRespuesta d fd pid pc motivo) :: r⟩
      d q := by
    refine ⟨hd, fun hm => ?_⟩
    rw [← List.singleton_append (x := (programa c).origen _), mem_filterMap_medio] at hm
    rcases hm with hm | hm | hm
    · exact hsin.1 hm
    · cases hm
    · exact hsin.2 hm
  cases hA.ejecucion.unica cpu d q hej hejd
  obtain ⟨x, hx, hm⟩ := maneja_respuesta hdef
  exact hno (Or.inr (Or.inl ⟨x, List.mem_append_right _ (List.mem_append_left _ hx), hm⟩))

end Lugares

end KernelSrt
