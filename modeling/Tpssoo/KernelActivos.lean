import Tpssoo.KernelEjecucion

/-!
# Where an active process may come from

A process is active in `cola_new`, `cola_ready` and `cola_exec`, in the hands of the thread that
handles its response, and while its state is BLOCKED. It stops being active when it is
suspended or ends, and only the long-term planner makes a suspended process active again.
-/
namespace KernelActivos

open EnterosC Protocolo KernelEstado KernelFunciones KernelHilos KernelVistas KernelPcbs
open KernelPresentes KernelLargoPlazo KernelCpus KernelEjecucion Entrelazado

/-- The queues whose processes are active. -/
def activa : Estado → Bool
  | .new | .ready | .running => true
  | _ => false

/-- The processes in the queues of the active ones, and those that are blocked, satisfy `S`. -/
structure Activos (S : ℤ → Prop) (k : Kernel) : Prop where
  colas : ∀ e, activa e = true → ∀ p ∈ k.colas e, S p
  bloqueados : ∀ p, estadoDe k p = some .blocked → S p

section Escrituras

variable {S : ℤ → Prop} {k k' : Kernel} {e : Estado} {p : ℤ}

theorem Activos.igual (h : Activos S k) (hcolas : k'.colas = k.colas) (hpcbs : k'.pcbs = k.pcbs) :
    Activos S k' := by
  constructor
  · rw [hcolas]
    exact h.colas
  · intro p hp
    rw [estadoDe, hpcbs] at hp
    exact h.bloqueados p hp

theorem Activos.agregar (h : Activos S k) (hp : activa e = true → S p) :
    Activos S (k.agregar e p) := by
  refine ⟨fun e' he' q hq => ?_, h.bloqueados⟩
  rw [Kernel.colas_agregar] at hq
  split at hq
  · next heq =>
      rcases List.mem_append.mp hq with hq | hq
      · exact h.colas e' he' q hq
      · rw [List.mem_singleton.mp hq]
        exact hp (heq ▸ he')
  · exact h.colas e' he' q hq

theorem Activos.quitar (h : Activos S k) (e : Estado) (p : ℤ) : Activos S (k.quitar e p) := by
  refine ⟨fun e' he' q hq => ?_, h.bloqueados⟩
  rw [Kernel.colas_quitar] at hq
  split at hq
  · exact h.colas e' he' q (List.mem_of_mem_erase hq)
  · exact h.colas e' he' q hq

/-- A queue is left with some of its processes. -/
theorem Activos.update (h : Activos S k) {xs : List ℤ} (hxs : ∀ q ∈ xs, q ∈ k.colas e)
    (hcolas : k'.colas = Function.update k.colas e xs) (hpcbs : k'.pcbs = k.pcbs) :
    Activos S k' := by
  constructor
  · intro e' he' q hq
    rw [hcolas] at hq
    by_cases heq : e' = e
    · subst heq
      rw [Function.update_self] at hq
      exact h.colas e' he' q (hxs q hq)
    · rw [Function.update_of_ne heq] at hq
      exact h.colas e' he' q hq
  · intro q hq
    rw [estadoDe, hpcbs] at hq
    exact h.bloqueados q hq

/-- The fields of a PCB are written. -/
theorem Activos.conPcb (h : Activos S k) {f : Pcb → Pcb}
    (hf : ∀ x, (f x).estado = .blocked → x.estado = .blocked ∨ S p) : Activos S (k.conPcb p f) := by
  refine ⟨h.colas, fun q hq => ?_⟩
  rw [estadoDe, Kernel.conPcb] at hq
  dsimp only at hq
  by_cases heq : q = p
  · subst heq
    rw [Function.update_self] at hq
    cases hpcb : k.pcbs q with
    | none =>
      rw [hpcb] at hq
      cases hq
    | some x =>
      rw [hpcb] at hq
      rcases hf x (Option.some.inj hq) with hx | hS
      · refine h.bloqueados q ?_
        rw [estadoDe, hpcb, Option.map_some, hx]
      · exact hS
  · rw [Function.update_of_ne heq] at hq
    exact h.bloqueados q hq

theorem Activos.cambiarEstado (h : Activos S k) (hp : e = .blocked → S p) :
    Activos S (k.cambiarEstado p e) := by
  refine h.conPcb fun x hx => Or.inr (hp ?_)
  rwa [Pcb.estado_cambiarEstado] at hx

end Escrituras

section Funciones

variable {S : ℤ → Prop} {c : ConfigKernel} {k : Kernel} {p : ℤ}

theorem Activos.desalojar (h : Activos S k) (pcb : ℤ) :
    Activos S (desalojarSiEsNecesarioSrt c k pcb) := by
  obtain ⟨e, i, heq, -⟩ := desalojar_eq c k pcb
  rw [heq]
  exact h.igual rfl rfl

theorem Activos.desbloquear (h : Activos S k) (hp : estadoDe k p = some .blocked) :
    Activos S (desbloquear k p) := by
  have hready : Activos S ((k.quitar .blocked p).agregar .ready p) :=
    (h.quitar .blocked p).agregar fun _ => h.bloqueados p hp
  exact (hready.cambiarEstado fun hno => by cases hno).igual rfl rfl

theorem Activos.desbloquearSuspendido (h : Activos S k) (p : ℤ) :
    Activos S (desbloquearSuspendido k p) := by
  have hcola : Activos S ((k.quitar .suspendedBlocked p).agregar .suspendedReady p) :=
    (h.quitar .suspendedBlocked p).agregar fun hno => by cases hno
  exact (hcola.cambiarEstado fun hno => by cases hno).igual rfl rfl

theorem Activos.suspender (h : Activos S k) (p : ℤ) : Activos S (suspender k p) := by
  have hestado : Activos S (k.cambiarEstado p .suspendedBlocked) :=
    h.cambiarEstado fun hno => by cases hno
  exact (hestado.quitar .blocked p).agregar fun hno => by cases hno

theorem Activos.quitarBloqueado (h : Activos S k) (p : ℤ) : Activos S (quitarBloqueado k p) := by
  rw [KernelFunciones.quitarBloqueado]
  repeat' split
  · exact (h.quitar _ p).quitar _ p
  · exact h.quitar _ p
  · exact h.quitar _ p
  · exact h

theorem Activos.terminarDump (h : Activos S k) (pid : ℤ) : Activos S (terminarDump k pid) := by
  rw [KernelFunciones.terminarDump]
  split
  · exact h.igual rfl rfl
  · exact h
  next q _ =>
  split
  · next hq => exact h.desbloquear hq
  split
  · exact h.desbloquearSuspendido q
  · exact h

theorem Activos.resolverDump (h : Activos S k) (pcb : ℤ) (ok : Bool) :
    Activos S (resolverDump k pcb ok) := by
  rw [KernelHilos.resolverDump]
  split
  · exact h.igual rfl rfl
  split
  · exact h.terminarDump _
  split
  · exact h.igual rfl rfl
  · exact h
  · next q _ =>
      have hestado : Activos S ((KernelFunciones.quitarBloqueado k q).cambiarEstado q .exit) :=
        (h.quitarBloqueado q).cambiarEstado fun hno => by cases hno
      exact hestado.igual rfl rfl

theorem Activos.despertarDeIo (h : Activos S k) (pid : ℤ) : Activos S (despertarDeIo c k pid) := by
  rw [KernelFunciones.despertarDeIo]
  split
  · exact h.igual rfl rfl
  · exact h
  next q _ =>
  split
  · next hq => exact (h.desbloquear hq).desalojar q
  split
  · exact h.desbloquearSuspendido q
  · exact h

theorem Activos.vaciarEspera (h : Activos S k) (xs : List Solicitud) :
    Activos S (vaciarEspera xs k).1 := by
  induction xs generalizing k with
  | nil => exact h
  | cons sol xs ih =>
    rw [KernelFunciones.vaciarEspera]
    split
    · exact h.igual rfl rfl
    · exact ih h
    · next q _ => exact ih (h.quitarBloqueado q)

theorem Activos.manejarDesconexionIo (h : Activos S k) (nombre : List Byte) (fd : ℕ) :
    Activos S (manejarDesconexionIo k nombre fd).1 := by
  rw [KernelFunciones.manejarDesconexionIo]
  split
  · exact h
  split
  · exact h
  split
  · exact h.igual rfl rfl
  dsimp only
  split
  · exact (h.vaciarEspera (k := k) _).igual rfl rfl
  · exact h.igual rfl rfl

theorem Activos.planificar (h : Activos S k) : Activos S (planificarCortoPlazo c k) := by
  have hmem : ∀ {pcb resto}, ordenReady c k = pcb :: resto →
      ∀ q ∈ pcb :: resto, q ∈ k.colas .ready :=
    fun horden q hq => ordenReady_perm.subset (horden ▸ hq)
  rcases planificar_casos c k with h' | h' | ⟨pcb, resto, horden, -, h'⟩ |
    ⟨pcb, resto, i, cpu, horden, -, h'⟩ <;> rw [h']
  · exact h.igual rfl rfl
  · exact h.igual rfl rfl
  · exact h.update (hmem horden) rfl rfl
  · have hresto : Activos S { k with colas := Function.update k.colas .ready resto } :=
      h.update (fun q hq => hmem horden q (List.mem_cons_of_mem _ hq)) rfl rfl
    have hS : S pcb := h.colas .ready rfl pcb (hmem horden pcb List.mem_cons_self)
    have hrunning : Activos S (({ k with colas := Function.update k.colas .ready resto } :
        Kernel).agregar .running pcb) := hresto.agregar fun _ => hS
    refine (hrunning.conPcb (p := pcb) (f := alDespachar k.reloj) fun x hx => ?_).igual rfl rfl
    exact Or.inr hS

theorem Activos.elegir (h : Activos S k) : Activos S (elegirCandidato c k) := by
  rw [elegirCandidato]
  split
  · exact h.igual rfl rfl
  · exact h.update (fun q hq => (ordenLargoPlazo_perm _).subset hq) rfl rfl

theorem Activos.admitir (h : Activos S k) (susp : Bool) (hp : S p) :
    Activos S (admitir c k p susp) := by
  obtain ⟨e, i, heq, -⟩ := admitir_eq c k p susp
  rw [heq]
  have htail : Activos S { k with
      colas := Function.update k.colas (colaDe susp) (k.colas (colaDe susp)).tail } :=
    h.update (fun q hq => List.mem_of_mem_tail hq) rfl rfl
  have hready := (htail.agregar (e := .ready) fun _ => hp).cambiarEstado (p := p) (e := .ready)
    fun hno => by cases hno
  refine hready.igual ?_ ?_
  · cases susp <;> rfl
  · rfl

theorem Activos.crear (h : Activos S k) (hnuevo : S k.ultimoPid) (path : List Byte) (tamanio : ℤ)
    (absoluto : Option (List Byte)) : Activos S (crearPcb c k path tamanio absoluto) := by
  have hcolas : (crearPcb c k path tamanio absoluto).colas =
      (k.agregar .new k.ultimoPid).colas := by
    rw [crearPcb]
    split <;> rfl
  constructor
  · rw [hcolas]
    exact (h.agregar fun _ => hnuevo).colas
  · intro q hq
    by_cases heq : q = k.ultimoPid
    · rw [heq]
      exact hnuevo
    · refine h.bloqueados q ?_
      rw [← hq, estadoDe, estadoDe, crearPcb]
      split <;> simp [Kernel.agregar, Kernel.postNewOMemoria, heq]

theorem Activos.recibirRespuesta (h : Activos S k) (cpu fd : ℕ) (pid pc : ℤ) (motivo : Motivo) :
    Activos S (recibirRespuesta k c cpu fd pid pc motivo) := by
  rw [KernelHilos.recibirRespuesta]
  split
  · exact h.igual rfl rfl
  next pcb _ =>
  split
  · exact h.igual rfl rfl
  split
  · exact (h.quitar .running pcb).igual rfl rfl
  · have hrafaga : Activos S (k.conPcb pcb (actualizarRafaga c k.reloj pc motivo)) :=
      h.conPcb fun x hx => Or.inl ((actualizar_estado c k.reloj pc motivo x).symm.trans hx)
    exact (hrafaga.quitar .running pcb).igual rfl rfl

end Funciones

section Acciones

variable {S : ℤ → Prop} {c : ConfigKernel} {k : Kernel} {a : Accion}

/-- What a step makes active was active, is new, or is admitted by the long-term planner. -/
theorem activos_efecto (h : Activos S k) (hnuevo : S k.ultimoPid)
    (hmano : ∀ p, enMano ((programa c).origen a) = some p → S p)
    (hadm : ∀ p susp, a = .largoResuelve p susp true → S p) :
    Activos S ((programa c).efecto k a) := by
  cases a with
  | largoElige => exact h.elegir
  | largoEnvia pcb susp | gestorEnvia pcb | dumpEnvia pcb =>
    dsimp only [programa, transicion]
    split
    · exact h.igual rfl rfl
    · exact h
  | largoResuelve pcb susp ok =>
    cases ok with
    | false => exact h
    | true => exact h.admitir susp (hadm pcb susp rfl)
  | cortoPlanifica => exact h.planificar
  | gestorToma =>
    dsimp only [programa, transicion]
    split
    · exact h
    · next pcb resto hexit =>
        have hresto : Activos S { k with colas := Function.update k.colas .exit resto } :=
          h.update (fun q hq => hexit ▸ List.mem_cons_of_mem _ hq) rfl rfl
        exact hresto.cambiarEstado fun hno => by cases hno
  | gestorLibera pcb ok =>
    dsimp only [programa, transicion]
    split
    · exact h.igual rfl rfl
    · refine ⟨?_, fun q hq => ?_⟩
      · split <;> exact h.colas
      · have hlibera : estadoDe { k with pcbs := Function.update k.pcbs pcb none } q =
            some .blocked := by
          split at hq <;> exact hq
        rw [estadoDe] at hlibera
        dsimp only at hlibera
        by_cases heq : q = pcb
        · rw [heq, Function.update_self] at hlibera
          cases hlibera
        · rw [Function.update_of_ne heq] at hlibera
          exact h.bloqueados q hlibera
  | suspensionVence pid desde bloqueo =>
    dsimp only [programa, transicion]
    split
    · exact h.igual rfl rfl
    · exact h
    next q _ =>
    split
    · exact h.suspender q
    · exact h
  | suspensionResuelve ok =>
    dsimp only [programa, transicion]
    split
    · exact h.igual rfl rfl
    · exact h
  | dumpFallaConexion pcb | escuchaFinaliza cpu pcb | ioFinaliza pcb resto =>
    exact h.cambiarEstado fun hno => by cases hno
  | dumpResuelve pcb ok => exact h.resolverDump pcb ok
  | dumpFinaliza pcb | dumpFinalizaTomado pcb | escuchaAgregaExit cpu pcb
  | escuchaFinalizaAgrega cpu pcb | escuchaFinalizaTomado cpu pcb | ioFinalizaAgrega pcb resto =>
    exact (h.agregar (e := .exit) (p := pcb) fun hno => by cases hno).igual rfl rfl
  | escuchaCambiaExit cpu pcb | escuchaCambiaReady cpu pcb =>
    exact (h.cambiarEstado (p := pcb) fun hno => by cases hno).igual rfl rfl
  | cpuRegistra fd nombre =>
    dsimp only [programa, transicion, registrarCpu]
    split <;> exact h.igual rfl rfl
  | interruptRegistra fd nombre =>
    dsimp only [programa, transicion]
    split
    · exact h.igual rfl rfl
    · exact h
  | recibeInitProc cpu fd path tamanio absoluto =>
    have hcrear : Activos S (crearPcb c (recibir k fd) path tamanio absoluto) :=
      (h.igual rfl rfl : Activos S (recibir k fd)).crear hnuevo path tamanio absoluto
    obtain ⟨e, he⟩ := initProc_igual (c := c) (k := k) cpu fd path tamanio absoluto
    rw [he]
    exact hcrear.igual rfl rfl
  | recibeRespuesta cpu fd pid pc motivo => exact h.recibirRespuesta cpu fd pid pc motivo
  | recibeOtro cpu fd =>
    dsimp only [programa, transicion]
    split
    · exact h.igual rfl rfl
    · exact (h.quitar .running _).igual rfl rfl
  | escuchaBloquea cpu pcb dispositivo duracion =>
    have hS : S pcb := hmano pcb rfl
    dsimp only [programa, transicion]
    split
    · exact h.quitar .running pcb
    · have hcampo : Activos S ((k.quitar .running pcb).conPcb pcb fun x =>
          { x with tiempoBloqueoIo := duracion }) :=
        (h.quitar .running pcb).conPcb fun _ hx => Or.inl hx
      exact (hcampo.cambiarEstado fun _ => hS).agregar fun hno => by cases hno
  | escuchaEncola cpu pcb grupo duracion =>
    dsimp only [programa, transicion, encolarSolicitud]
    split <;> exact h.igual rfl rfl
  | escuchaSinDispositivo cpu pcb => exact h.quitar .running pcb
  | escuchaBloqueaDump cpu pcb =>
    have hS : S pcb := hmano pcb rfl
    have hcola : Activos S ((k.quitar .running pcb).agregar .blocked pcb) :=
      (h.quitar .running pcb).agregar fun hno => by cases hno
    exact hcola.cambiarEstado fun _ => hS
  | escuchaAgregaReady cpu pcb => exact h.agregar fun _ => hmano pcb rfl
  | escuchaDesaloja cpu pcb => exact h.desalojar pcb
  | escuchaRevisa cpu =>
    dsimp only [programa, transicion]
    split
    · exact h
    · next pcb _ =>
        have hestado : Activos S ((k.quitar .running pcb).cambiarEstado pcb .exit) :=
          (h.quitar .running pcb).cambiarEstado fun hno => by cases hno
        exact hestado.igual rfl rfl
  | ioRegistra fd nombre =>
    dsimp only [programa, transicion, registrarInstancia]
    split <;> exact h.igual rfl rfl
  | ioDespacha grupo =>
    dsimp only [programa, transicion, despacharGrupo]
    split <;> exact h.igual rfl rfl
  | ioTermina fd nombre terminadas pid =>
    dsimp only [programa, transicion, manejarFinIo]
    split
    · exact h
    · exact (h.despertarDeIo (c := c) pid).igual rfl rfl
  | ioDesconecta fd nombre terminadas => exact h.manejarDesconexionIo nombre fd
  | _ => exact h.igual rfl rfl

/-- A process comes to the hands of a thread from `cola_exec`. -/
theorem manos_efecto (h : Activos S k)
    (hexec : ∀ cpu fd pid pc motivo q, a = .recibeRespuesta cpu fd pid pc motivo →
      (k.cpus cpu).pcbEnEjecucion = some q → q ∈ k.colas .running)
    (hmano : ∀ p, enMano ((programa c).origen a) = some p → S p) :
    ∀ d ∈ (programa c).destino k a, ∀ p, enMano d = some p → S p := by
  cases a with
  | recibeRespuesta cpu fd pid pc motivo =>
    dsimp only [programa, transicion, trasRespuesta]
    split
    · simp
    next pcb hpcb =>
    have hS : S pcb := h.colas .running rfl pcb (hexec cpu fd pid pc motivo pcb rfl hpcb)
    split
    · simp
    split
    · simp [enMano]
    · cases motivo <;> simp [enMano, segunMotivo, hS]
  | escuchaBloquea cpu pcb dispositivo duracion =>
    have hS : S pcb := hmano pcb rfl
    dsimp only [programa, transicion]
    split
    · simpa [enMano] using hS
    · simp [enMano]
  | _ =>
    dsimp only [programa, transicion, trasDump]
    repeat' split
    all_goals simp [enMano]

end Acciones

end KernelActivos
