import Tpssoo.KernelPcbs

/-!
# The lock discipline

`finalizar_proceso` takes `mutex_colas` itself. Two of its callers already hold it: the
handler of a dump that failed, and that of the disconnection of a CPU that was executing.
Each of them then waits for itself, and the kernel stops. The handler of a dump that could
not connect calls it without the lock, but leaves the process in the queue where it was.
-/
namespace KernelCerrojo

open EnterosC Protocolo KernelEstado KernelFunciones KernelHilos KernelVistas KernelPcbs
open Entrelazado Tartamudeo

/-- The thread that owns the lock when `finalizar_proceso` is called inside a section. -/
def duenoDe : Hilo → Option Dueno
  | .escuchaFinalizaTomado cpu _ => some (.escuchaCpu cpu)
  | .dumpFinalizaTomado pcb => some (.dump pcb)
  | _ => none

/-- Between two actions nobody holds the lock, and nobody is going to take it twice. -/
structure Disciplina (s : Sistema Kernel Hilo) : Prop where
  suelto : s.comun.mutexColas = none
  sinReentrada : ∀ h ∈ s.hilos, duenoDe h = none

/-- The process that a handler of a failed dump, or of a lost CPU, adds to `cola_exit`. -/
def finalizadoPor : Accion → Option ℤ
  | .dumpFinaliza pcb | .dumpFinalizaTomado pcb | .escuchaFinalizaTomado _ pcb => some pcb
  | _ => none

/-- It ends exactly once in `cola_exit`, in no other queue, and is notified once. -/
def CierraBien (c : ConfigKernel) (e : ℕ × Accion) (s : Sistema Kernel Hilo) : Prop :=
  ∀ pcb, finalizadoPor e.2 = some pcb →
    let k' := (programa c).efecto s.comun e.2
    (k'.colas .exit).count pcb = 1 ∧ (∀ q, q ≠ .exit → pcb ∉ k'.colas q) ∧
      k'.semProcesosEnExit = s.comun.semProcesosEnExit + 1

/-- The PCB that the handler of a dump finds. -/
def volcado (k : Kernel) (pcb : ℤ) : Option ℤ :=
  (k.pcbs pcb).bind fun p => (buscarPcbPorPid k p.pid).getD none

/-- A dump fails, or a CPU is lost while it executes. -/
def falla (k : Kernel) : Accion → Bool
  | .dumpFallaConexion _ => true
  | .dumpResuelve pcb false => (volcado k pcb).isSome
  | .escuchaRevisa cpu => (k.cpus cpu).pcbEnEjecucion.isSome
  | _ => false

def SinFallas (e : ℕ × Accion) (s : Sistema Kernel Hilo) : Prop := falla s.comun e.2 = false

instance (e : ℕ × Accion) (s : Sistema Kernel Hilo) : Decidable (SinFallas e s) :=
  inferInstanceAs (Decidable (falla s.comun e.2 = false))

section Cerrojo

variable (c : ConfigKernel) (k : Kernel)

/-- The only actions that end with the lock taken. -/
theorem mutex_efecto (a : Accion) :
    ((programa c).efecto k a).mutexColas = k.mutexColas ∨
      (∃ pcb q, a = .dumpResuelve pcb false ∧ volcado k pcb = some q) ∨
      ∃ cpu pcb, a = .escuchaRevisa cpu ∧ (k.cpus cpu).pcbEnEjecucion = some pcb := by
  cases a with
  | cortoPlanifica =>
    left
    dsimp only [programa, transicion]
    rcases planificar_casos c k with h | h | ⟨pcb, resto, -, -, h⟩ | ⟨pcb, resto, i,
        cpu, -, -, h⟩ <;>
      rw [h] <;> rfl
  | largoElige =>
    left
    dsimp only [programa, transicion]
    rw [elegirCandidato]
    split <;> rfl
  | largoEnvia pcb susp | gestorEnvia pcb | dumpEnvia pcb =>
    left
    dsimp only [programa, transicion]
    split <;> rfl
  | largoResuelve pcb susp ok =>
    left
    dsimp only [programa, transicion]
    split
    · obtain ⟨_, _, h, -⟩ := admitir_eq c k pcb susp
      rw [h]
    · rfl
  | gestorToma =>
    left
    dsimp only [programa, transicion]
    split <;> rfl
  | gestorLibera pcb ok =>
    left
    dsimp only [programa, transicion]
    split
    · rfl
    · split <;> rfl
  | suspensionVence q desde bloqueo =>
    left
    dsimp only [programa, transicion]
    repeat' split
    all_goals rfl
  | suspensionResuelve ok =>
    left
    dsimp only [programa, transicion]
    split <;> rfl
  | dumpResuelve pcb ok =>
    dsimp only [programa, transicion]
    cases ok with
    | true =>
      left
      rw [resolverDump]
      split
      · rfl
      · obtain ⟨_, _, _, _, _, h⟩ := terminarDump_eq k _
        rw [if_pos rfl, h]
    | false =>
      cases hv : volcado k pcb with
      | some q => exact Or.inr (Or.inl ⟨pcb, q, rfl, hv⟩)
      | none =>
        left
        rw [resolverDump]
        split
        · rfl
        next p hp =>
        rw [volcado, hp, Option.bind_some] at hv
        rw [if_neg Bool.false_ne_true]
        rcases hb : buscarPcbPorPid k p.pid with _ | _ | q
        · rfl
        · rfl
        · rw [hb] at hv
          cases hv
  | cpuRegistra fd nombre =>
    left
    dsimp only [programa, transicion, registrarCpu]
    split <;> rfl
  | interruptRegistra fd nombre =>
    left
    dsimp only [programa, transicion]
    split <;> rfl
  | recibeInitProc cpu fd path tamanio absoluto =>
    left
    dsimp only [programa, transicion, crearPcb]
    split <;> split <;> rfl
  | recibeRespuesta cpu fd q pc motivo =>
    left
    dsimp only [programa, transicion, recibirRespuesta]
    repeat' split
    all_goals rfl
  | recibeOtro cpu fd =>
    left
    dsimp only [programa, transicion]
    split <;> rfl
  | escuchaBloquea cpu pcb dispositivo duracion =>
    left
    dsimp only [programa, transicion]
    split <;> rfl
  | escuchaEncola cpu pcb grupo duracion =>
    left
    dsimp only [programa, transicion, encolarSolicitud]
    split <;> rfl
  | escuchaDesaloja cpu pcb =>
    left
    obtain ⟨_, _, h, -⟩ := desalojar_eq c k pcb
    dsimp only [programa, transicion]
    rw [h]
  | escuchaRevisa cpu =>
    cases hp : (k.cpus cpu).pcbEnEjecucion with
    | none =>
      left
      dsimp only [programa, transicion]
      rw [hp]
    | some pcb => exact Or.inr (Or.inr ⟨cpu, pcb, rfl, hp⟩)
  | ioRegistra fd nombre =>
    left
    dsimp only [programa, transicion, registrarInstancia]
    split <;> rfl
  | ioDespacha grupo =>
    left
    dsimp only [programa, transicion, despacharGrupo]
    split <;> rfl
  | ioTermina fd nombre terminadas q =>
    left
    dsimp only [programa, transicion, manejarFinIo]
    split
    · rfl
    · obtain ⟨_, _, _, _, _, _, h, -⟩ := despertarDeIo_eq c k q
      rw [h]
      rfl
  | ioDesconecta fd nombre terminadas =>
    left
    dsimp only [programa, transicion, manejarDesconexionIo]
    split
    · rfl
    split
    · rfl
    split
    · rfl
    split
    · next g₁ _ _ =>
        obtain ⟨_, _, h⟩ := vaciarEspera_eq k g₁.colaEsperaCompartida
        rw [h]
    · rfl
  | _ => exact Or.inl rfl

end Cerrojo

section Corridas

variable {c : ConfigKernel} {k : Kernel} {l r : List Hilo} {a : Accion}

theorem sin_algo {α : Type*} {o : Option α} (h : o.isSome = false) : o = none :=
  Option.isNone_iff_eq_none.mp (Option.isSome_eq_false_iff.mp h)

/-- Not about to finalise a process that could not be dumped, or whose CPU was lost. -/
def Tranquilo (h : Hilo) : Prop := duenoDe h = none ∧ ∀ pcb, h ≠ .dumpFinaliza pcb

/-- The threads that the actions of a run without failures leave. -/
theorem destino_sin_fallas {s : Sistema Kernel Hilo} {i : ℕ} (hC : SinFallas (i, a) s) :
    ∀ h ∈ (programa c).destino s.comun a, Tranquilo h := by
  cases a with
  | dumpFallaConexion pcb => cases hC
  | dumpResuelve pcb ok =>
    dsimp only [programa, transicion, trasDump]
    cases ok with
    | true => split <;> simp
    | false =>
      have hv : volcado s.comun pcb = none := sin_algo hC
      split
      · next q hq =>
          obtain ⟨p, hp, hb⟩ := Option.bind_eq_some_iff.mp hq
          rw [volcado, hp, Option.bind_some, hb] at hv
          cases hv
      · simp
  | escuchaRevisa cpu =>
    have hp : (s.comun.cpus cpu).pcbEnEjecucion = none := sin_algo hC
    dsimp only [programa, transicion]
    rw [hp]
    simp [Tranquilo, duenoDe]
  | recibeRespuesta cpu fd q pc motivo =>
    dsimp only [programa, transicion, trasRespuesta]
    repeat' split
    all_goals cases motivo <;> simp [Tranquilo, duenoDe, segunMotivo]
  | _ =>
    dsimp only [programa, transicion]
    repeat' split
    all_goals simp [Tranquilo, duenoDe]

theorem disciplina_paso (hI : ∀ h ∈ l ++ (programa c).origen a :: r, Tranquilo h)
    (hsuelto : k.mutexColas = none)
    (hC : SinFallas (l.length, a) ⟨k, l ++ (programa c).origen a :: r⟩) :
    ((programa c).efecto k a).mutexColas = none ∧
      ∀ h ∈ l ++ ((programa c).destino k a ++ r), Tranquilo h := by
  constructor
  · rcases mutex_efecto c k a with h | ⟨pcb, q, rfl, hq⟩ | ⟨cpu, pcb, rfl, hpcb⟩
    · rw [h, hsuelto]
    · have hv : volcado k pcb = none := sin_algo hC
      cases hv.symm.trans hq
    · have hp : (k.cpus cpu).pcbEnEjecucion = none := sin_algo hC
      cases hp.symm.trans hpcb
  · intro h hmem
    rcases List.mem_append.mp hmem with hmem | hmem
    · exact hI h (List.mem_append_left _ hmem)
    rcases List.mem_append.mp hmem with hmem | hmem
    · exact destino_sin_fallas hC h hmem
    · exact hI h (List.mem_append_right _ (List.mem_cons_of_mem _ hmem))

variable (c) (path : List Byte) (tamanio : ℤ) (absoluto : Option (List Byte))

theorem disciplina_corrida {s : Sistema Kernel Hilo}
    (h : Llega (programa c) SinFallas (arranque c path tamanio absoluto) s) :
    s.comun.mutexColas = none ∧ ∀ d ∈ s.hilos, Tranquilo d := by
  refine invariante_llega (I := fun s => s.comun.mutexColas = none ∧ ∀ d ∈ s.hilos, Tranquilo d)
    (fun k l r a hI _ hC => disciplina_paso hI.2 hI.1 hC) ⟨rfl, ?_⟩ h
  simp [arranque, Tranquilo, duenoDe]

/-- In a run without failed dumps and without CPUs lost while they execute, every handler
releases the lock, none takes it twice and no process is finalised wrongly. -/
theorem cerrojo_de_sin_fallas {es : List (ℕ × Accion)} {s : Sistema Kernel Hilo}
    (hrun : correr (paso (programa c)) es (arranque c path tamanio absoluto) = some s)
    (hC : Cumple (paso (programa c)) SinFallas es (arranque c path tamanio absoluto)) :
    Disciplina s ∧ ∀ e, Habilitado (programa c) e s → CierraBien c e s := by
  obtain ⟨hsuelto, hhilos⟩ := disciplina_corrida c path tamanio absoluto ⟨es, hC, hrun⟩
  refine ⟨⟨hsuelto, fun d hd => (hhilos d hd).1⟩, ?_⟩
  rintro ⟨i, a⟩ ⟨hget, -⟩ pcb hpcb
  have htranq : Tranquilo ((programa c).origen a) := hhilos _ (List.mem_of_getElem? hget)
  cases a <;> cases hpcb
  · exact absurd rfl (htranq.2 pcb)
  · cases htranq.1
  · cases htranq.1

/-- A dump ends well, and the device disconnects while it serves the process. -/
def hastaDesconectarIo : List Accion :=
  hastaEjecutar ++ [.moduloTermina ⟨0, 1, 2, 1, some (1, 0), false, []⟩ 1 .bloqueanteDumpMemory,
    .recibeRespuesta 0 0 0 1 .bloqueanteDumpMemory, .escuchaBloqueaDump 0 0, .escuchaLibera 0,
    .dumpEnvia 0, .dumpRecibe 0 true, .dumpResuelve 0 true,
    .cortoTomaReady, .cortoTomaCpu, .cortoPlanifica, .moduloLee ⟨0, 1, 2, 1, none, false, []⟩,
    .moduloTermina ⟨0, 1, 3, 1, some (2, 0), false, []⟩ 2 (.bloqueanteIo [68] 5),
    .recibeRespuesta 0 0 0 2 (.bloqueanteIo [68] 5), .escuchaBloquea 0 0 [68] 5,
    .escuchaEncola 0 0 0 5, .ioDesconecta 2 [68] 0, .ioFinaliza 0 [], .ioFinalizaAgrega 0 [],
    .ioFinalizaFin]

theorem cerrojo_ejemplo : ∃ s, tras configuracion hastaDesconectarIo = some s ∧
    s.comun.colas .exit = [0] ∧ Disciplina s := by
  have hobs : (tras configuracion hastaDesconectarIo).map (fun s => s.comun.colas .exit) =
      some [0] := by decide +kernel
  have hC : Cumple (paso (programa configuracion)) SinFallas
      (agenda (programa configuracion) hastaDesconectarIo (arranque configuracion [65] 10 none))
      (arranque configuracion [65] 10 none) := by decide +kernel
  obtain ⟨s, hs, h⟩ := Option.map_eq_some_iff.mp hobs
  exact ⟨s, hs, h, (cerrojo_de_sin_fallas configuracion [65] 10 none hs hC).1⟩

end Corridas

section Fallas

variable {c : ConfigKernel} {k : Kernel} {l r : List Hilo} {a : Accion}

/-- Once a handler waits for itself, no handler takes the lock again. -/
theorem trabado {C : ℕ × Accion → Sistema Kernel Hilo → Prop} {s s' : Sistema Kernel Hilo}
    {d : Dueno} (hd : s.comun.mutexColas = some d) (h : Llega (programa c) C s s') :
    s'.comun.mutexColas = some d := by
  refine invariante_llega (I := fun s => s.comun.mutexColas = some d) ?_ hd h
  intro k l r a hI hguarda _
  rcases mutex_efecto c k a with h | ⟨pcb, q, rfl, -⟩ | ⟨cpu, pcb, rfl, -⟩
  · exact h.trans hI
  · have hlibre : k.mutexColas.isNone = true := hguarda.2
    rw [show k.mutexColas = some d from hI] at hlibre
    cases hlibre
  · have hlibre : k.mutexColas.isNone = true := hguarda.2
    rw [show k.mutexColas = some d from hI] at hlibre
    cases hlibre

/-- Which failure stops the kernel: a dump that Memoria refuses, or does not answer, and the
loss of a CPU that is executing. -/
theorem falla_traba (hsuelto : k.mutexColas = none)
    (hconexion : ∀ pcb, a ≠ .dumpFallaConexion pcb) :
    ((programa c).efecto k a).mutexColas = none ↔ falla k a = false := by
  constructor
  · intro h
    cases a with
    | dumpFallaConexion pcb => exact absurd rfl (hconexion pcb)
    | dumpResuelve pcb ok =>
      cases ok with
      | true => rfl
      | false =>
        rw [falla, Option.isSome_eq_false_iff, Option.isNone_iff_eq_none,
          Option.eq_none_iff_forall_ne_some]
        intro q hq
        obtain ⟨p, hp, hb⟩ := Option.bind_eq_some_iff.mp hq
        have hb' : buscarPcbPorPid k p.pid = some (some q) := by
          rcases hbusca : buscarPcbPorPid k p.pid with _ | o
          · rw [hbusca] at hb
            cases hb
          · rw [hbusca] at hb
            exact congrArg some hb
        dsimp only [programa, transicion] at h
        rw [resolverDump, hp] at h
        dsimp only at h
        rw [if_neg Bool.false_ne_true, hb'] at h
        cases h
    | escuchaRevisa cpu =>
      rw [falla, Option.isSome_eq_false_iff, Option.isNone_iff_eq_none,
        Option.eq_none_iff_forall_ne_some]
      intro pcb hpcb
      dsimp only [programa, transicion] at h
      rw [hpcb] at h
      cases h
    | _ => rfl
  · intro h
    rcases mutex_efecto c k a with h' | ⟨pcb, q, rfl, hq⟩ | ⟨cpu, pcb, rfl, hpcb⟩
    · exact h'.trans hsuelto
    · cases (sin_algo h).symm.trans hq
    · cases (sin_algo h).symm.trans hpcb

/-- The first process asks for a dump, which Memoria refuses. -/
def hastaRechazo : List Accion :=
  hastaEjecutar ++ [.moduloTermina ⟨0, 1, 2, 1, some (1, 0), false, []⟩ 1 .bloqueanteDumpMemory,
    .recibeRespuesta 0 0 0 1 .bloqueanteDumpMemory, .escuchaBloqueaDump 0 0, .dumpEnvia 0,
    .dumpRecibe 0 false, .dumpResuelve 0 false]

/-- The thread of the dump waits for itself for ever, with the process in no queue. -/
theorem rechazo_traba : ∃ s, tras configuracion hastaRechazo = some s ∧ ¬ Disciplina s ∧
    (∀ q, 0 ∉ s.comun.colas q) ∧ ∀ C s', Llega (programa configuracion) C s s' →
      s'.comun.mutexColas = some (.dump 0) := by
  have hobs : (tras configuracion hastaRechazo).map (fun s => (s.comun.mutexColas,
      [Estado.new, .ready, .running, .blocked, .exit, .suspendedReady, .suspendedBlocked].map
        s.comun.colas)) = some (some (.dump 0), [[], [], [], [], [], [], []]) := by decide +kernel
  obtain ⟨s, hs, h⟩ := Option.map_eq_some_iff.mp hobs
  simp only [Prod.mk.injEq, List.map_cons, List.map_nil, List.cons.injEq, and_true] at h
  obtain ⟨hmutex, hcolas⟩ := h
  refine ⟨s, hs, fun hd => ?_, fun q => ?_, fun C s' h => trabado hmutex h⟩
  · cases hd.suelto.symm.trans hmutex
  · cases q <;> simp [hcolas]

end Fallas

end KernelCerrojo
