import Tpssoo.KernelHilos

/-!
# What each function leaves alone

The kernel seen from its CPUs and from its devices, and the functions that change neither.
The invariants are stated over these views, so that most actions preserve them by frame.
-/
namespace KernelVistas

open EnterosC Protocolo KernelEstado KernelFunciones KernelHilos

/-- The CPUs and their dispatch connections. -/
structure VistaCpus where
  socket : ℕ → Option ℕ
  libre : ℕ → Bool
  enEjecucion : ℕ → Option ℤ
  lista : List ℕ
  total : ℕ
  conexiones : ℕ
  enviados : ℕ → List Mensaje
  entrantes : ℕ → List PaqueteCpu

def vistaCpus (k : Kernel) : VistaCpus where
  socket c := (k.cpus c).socketDispatch
  libre c := (k.cpus c).cpuLibre
  enEjecucion c := (k.cpus c).pcbEnEjecucion
  lista := k.listaCpus
  total := k.totalCpus
  conexiones := k.totalConexiones
  enviados fd := k.enviados (.dispatch fd)
  entrantes := k.entrantes

/-- The devices and the connections of their instances. -/
structure VistaIo where
  dispositivos : List GrupoIo
  grupos : ℕ
  conexiones : ℕ
  enviados : ℕ → List Mensaje

def vistaIo (k : Kernel) : VistaIo where
  dispositivos := k.dispositivosIo
  grupos := k.totalGrupos
  conexiones := k.totalConexiones
  enviados fd := k.enviados (.io fd)

section Basicas

variable (k : Kernel) (e : Estado) (p : ℤ) (f : Pcb → Pcb) (c : ℕ) (m : Mensaje) (fd : ℕ)

@[simp] theorem vistaCpus_roto : vistaCpus k.roto = vistaCpus k := rfl
@[simp] theorem vistaCpus_agregar : vistaCpus (k.agregar e p) = vistaCpus k := rfl
@[simp] theorem vistaCpus_quitar : vistaCpus (k.quitar e p) = vistaCpus k := rfl
@[simp] theorem vistaCpus_conPcb : vistaCpus (k.conPcb p f) = vistaCpus k := rfl
@[simp] theorem vistaCpus_cambiarEstado : vistaCpus (k.cambiarEstado p e) = vistaCpus k := rfl
@[simp] theorem vistaCpus_postReady : vistaCpus k.postReady = vistaCpus k := rfl
@[simp] theorem vistaCpus_postCpuLibre : vistaCpus k.postCpuLibre = vistaCpus k := rfl
@[simp] theorem vistaCpus_postNewOMemoria : vistaCpus k.postNewOMemoria = vistaCpus k := rfl
@[simp] theorem vistaCpus_postExit : vistaCpus k.postExit = vistaCpus k := rfl

@[simp] theorem vistaCpus_enviar_io : vistaCpus (k.enviar (.io fd) m) = vistaCpus k := by
  simp [vistaCpus, Kernel.enviar]

@[simp] theorem vistaCpus_enviar_interrupt :
    vistaCpus (k.enviar (.interrupt fd) m) = vistaCpus k := by
  simp [vistaCpus, Kernel.enviar]

@[simp] theorem vistaIo_roto : vistaIo k.roto = vistaIo k := rfl
@[simp] theorem vistaIo_agregar : vistaIo (k.agregar e p) = vistaIo k := rfl
@[simp] theorem vistaIo_quitar : vistaIo (k.quitar e p) = vistaIo k := rfl
@[simp] theorem vistaIo_conPcb : vistaIo (k.conPcb p f) = vistaIo k := rfl
@[simp] theorem vistaIo_cambiarEstado : vistaIo (k.cambiarEstado p e) = vistaIo k := rfl
@[simp] theorem vistaIo_postReady : vistaIo k.postReady = vistaIo k := rfl
@[simp] theorem vistaIo_postCpuLibre : vistaIo k.postCpuLibre = vistaIo k := rfl
@[simp] theorem vistaIo_postNewOMemoria : vistaIo k.postNewOMemoria = vistaIo k := rfl
@[simp] theorem vistaIo_postExit : vistaIo k.postExit = vistaIo k := rfl
@[simp] theorem vistaIo_conCpu (g : Cpu → Cpu) : vistaIo (k.conCpu c g) = vistaIo k := rfl

@[simp] theorem vistaIo_enviar_dispatch :
    vistaIo (k.enviar (.dispatch fd) m) = vistaIo k := by
  simp [vistaIo, Kernel.enviar]

@[simp] theorem vistaIo_enviar_interrupt :
    vistaIo (k.enviar (.interrupt fd) m) = vistaIo k := by
  simp [vistaIo, Kernel.enviar]

end Basicas

section Funciones

variable (c : ConfigKernel) (k : Kernel)

theorem enviarInterrupcion_casos (cpu : ℕ) :
    enviarInterrupcionACpu k cpu = k ∨
      ∃ fd, enviarInterrupcionACpu k cpu =
        k.enviar (.interrupt fd)
          (.procesoInterrupcion (k.cpus cpu).socketDispatch (rafagaActual k cpu)) := by
  rw [enviarInterrupcionACpu]
  cases (k.cpus cpu).socketInterrupt with
  | none => exact Or.inl rfl
  | some fd => exact Or.inr ⟨fd, rfl⟩

/-- The check of SRT sends one interrupt, or nothing, or meets a freed PCB. -/
theorem desalojar_casos (pcb : ℤ) :
    desalojarSiEsNecesarioSrt c k pcb = k ∨
      (∃ fd d r, desalojarSiEsNecesarioSrt c k pcb =
        k.enviar (.interrupt fd) (.procesoInterrupcion d r)) ∨
      desalojarSiEsNecesarioSrt c k pcb = k.roto := by
  rw [desalojarSiEsNecesarioSrt]
  split
  · cases hp : k.pcbs pcb with
    | none => exact Or.inr (Or.inr rfl)
    | some p =>
      dsimp only
      rcases buscarVictima k p.estimacionRafaga k.listaCpus none with _ | _ | v
      · exact Or.inr (Or.inr rfl)
      · exact Or.inl rfl
      · rcases enviarInterrupcion_casos k v.1 with h | ⟨fd, h⟩
        · exact Or.inl h
        · exact Or.inr (Or.inl ⟨fd, _, _, h⟩)
  · exact Or.inl rfl

/-- All that the check of SRT may change. -/
theorem desalojar_eq (pcb : ℤ) :
    ∃ e i, desalojarSiEsNecesarioSrt c k pcb = { k with enviados := e, indefinido := i } ∧
      (∀ fd, e (.dispatch fd) = k.enviados (.dispatch fd)) ∧
      ∀ fd, e (.io fd) = k.enviados (.io fd) := by
  rcases desalojar_casos c k pcb with h | ⟨fd, d, r, h⟩ | h
  · exact ⟨k.enviados, k.indefinido, h, fun _ => rfl, fun _ => rfl⟩
  · refine ⟨_, k.indefinido, h, fun fd' => ?_, fun fd' => ?_⟩ <;>
      exact Function.update_of_ne (by simp) _ _
  · exact ⟨k.enviados, true, h, fun _ => rfl, fun _ => rfl⟩

@[simp] theorem vistaCpus_desalojar (pcb : ℤ) :
    vistaCpus (desalojarSiEsNecesarioSrt c k pcb) = vistaCpus k := by
  obtain ⟨e, i, h, hd, -⟩ := desalojar_eq c k pcb
  rw [h]
  simp only [vistaCpus, hd]

@[simp] theorem vistaIo_desalojar (pcb : ℤ) :
    vistaIo (desalojarSiEsNecesarioSrt c k pcb) = vistaIo k := by
  obtain ⟨e, i, h, -, hio⟩ := desalojar_eq c k pcb
  rw [h]
  simp only [vistaIo, hio]

/-- The queue that an admitted process leaves. -/
def colaDe (susp : Bool) : Estado := if susp then .suspendedReady else .new

/-- All that an admission may change. -/
theorem admitir_eq (pcb : ℤ) (susp : Bool) : ∃ e i, admitir c k pcb susp =
    { k with
      colas := Function.update (Function.update k.colas (colaDe susp) (k.colas (colaDe susp)).tail)
        .ready (k.colas .ready ++ [pcb])
      pcbs := Function.update k.pcbs pcb ((k.pcbs pcb).map (Pcb.cambiarEstado k.reloj .ready))
      semProcesosReady := k.semProcesosReady + 1
      enviados := e
      indefinido := i } ∧
      (∀ fd, e (.dispatch fd) = k.enviados (.dispatch fd)) ∧
      ∀ fd, e (.io fd) = k.enviados (.io fd) := by
  obtain ⟨e, i, h, hd, hio⟩ := desalojar_eq c (((Kernel.agregar
    { k with colas := Function.update k.colas (colaDe susp) (k.colas (colaDe susp)).tail } .ready
      pcb).cambiarEstado pcb .ready).postReady) pcb
  refine ⟨e, i, h.trans ?_, hd, hio⟩
  cases susp <;> rfl

/-- All that a process that leaves BLOCKED may change. -/
theorem terminarDump_eq (pid : ℤ) : ∃ colas pcbs r n i, terminarDump k pid =
    { k with
      colas := colas, pcbs := pcbs, semProcesosReady := r, semProcesosEnNewOMemoriaLibre := n
      indefinido := i } := by
  rw [terminarDump]
  repeat' split
  all_goals exact ⟨_, _, _, _, _, rfl⟩

theorem quitarBloqueado_eq (pcb : ℤ) : ∃ colas, quitarBloqueado k pcb =
    { k with colas := colas } := by
  rw [quitarBloqueado]
  repeat' split
  all_goals exact ⟨_, rfl⟩

theorem resolverDump_eq (pcb : ℤ) (ok : Bool) : ∃ colas pcbs r n m i, resolverDump k pcb ok =
    { k with
      colas := colas, pcbs := pcbs, semProcesosReady := r, semProcesosEnNewOMemoriaLibre := n
      mutexColas := m, indefinido := i } := by
  rw [resolverDump]
  split
  · exact ⟨_, _, _, _, _, _, rfl⟩
  split
  · obtain ⟨colas, pcbs, r, n, i, h⟩ := terminarDump_eq k _
    exact ⟨colas, pcbs, r, n, k.mutexColas, i, h⟩
  split
  · exact ⟨_, _, _, _, _, _, rfl⟩
  · exact ⟨_, _, _, _, _, _, rfl⟩
  · next q _ =>
      obtain ⟨colas, h⟩ := quitarBloqueado_eq k q
      rw [h]
      exact ⟨_, _, _, _, _, _, rfl⟩

theorem despertarDeIo_eq (pid : ℤ) : ∃ colas pcbs r n e i, despertarDeIo c k pid =
    { k with
      colas := colas, pcbs := pcbs, semProcesosReady := r, semProcesosEnNewOMemoriaLibre := n
      enviados := e, indefinido := i } ∧
      (∀ fd, e (.dispatch fd) = k.enviados (.dispatch fd)) ∧
      ∀ fd, e (.io fd) = k.enviados (.io fd) := by
  rw [despertarDeIo]
  split
  · exact ⟨_, _, _, _, _, _, rfl, fun _ => rfl, fun _ => rfl⟩
  · exact ⟨_, _, _, _, _, _, rfl, fun _ => rfl, fun _ => rfl⟩
  split
  · obtain ⟨e, i, h, hd, hio⟩ := desalojar_eq c (desbloquear k _) _
    exact ⟨_, _, _, _, e, i, h, hd, hio⟩
  · split <;> exact ⟨_, _, _, _, _, _, rfl, fun _ => rfl, fun _ => rfl⟩

theorem vaciarEspera_eq (xs : List Solicitud) :
    ∃ colas i, (vaciarEspera xs k).1 = { k with colas := colas, indefinido := i } := by
  induction xs generalizing k with
  | nil => exact ⟨_, _, rfl⟩
  | cons sol xs ih =>
    rw [vaciarEspera]
    split
    · exact ⟨_, _, rfl⟩
    · exact ih k
    · next pcb _ =>
        obtain ⟨colas, h⟩ := quitarBloqueado_eq k pcb
        obtain ⟨colas', i, h'⟩ := ih (quitarBloqueado k pcb)
        refine ⟨colas', i, h'.trans ?_⟩
        rw [h]

theorem enviarPedidos_otro (nombre : List Byte) (xs : List (ℕ × Solicitud))
    (enviados : Canal → List Mensaje) {a : Canal} (ha : ∀ fd, a ≠ .io fd) :
    xs.foldl (enviarPedido nombre) enviados a = enviados a := by
  induction xs generalizing enviados with
  | nil => rfl
  | cons x xs ih => rw [List.foldl_cons, ih, enviarPedido, Function.update_of_ne (ha x.1)]

@[simp] theorem vistaCpus_guardarGrupo (r : GrupoIo × List (ℕ × Solicitud)) :
    vistaCpus (guardarGrupo k r) = vistaCpus k := by
  have h : ∀ fd, r.2.foldl (enviarPedido r.1.nombreDispositivo) k.enviados (.dispatch fd) =
      k.enviados (.dispatch fd) := fun fd => enviarPedidos_otro _ _ _ fun _ => by simp
  simp only [vistaCpus, guardarGrupo, h]

@[simp] theorem vistaCpus_agregarAExit (pcb : ℤ) : vistaCpus (agregarAExit k pcb) = vistaCpus k :=
  rfl

@[simp] theorem vistaIo_agregarAExit (pcb : ℤ) : vistaIo (agregarAExit k pcb) = vistaIo k := rfl

@[simp] theorem vistaCpus_crearPcb (path : List Byte) (tamanio : ℤ) (abs : Option (List Byte)) :
    vistaCpus (crearPcb c k path tamanio abs) = vistaCpus k := by
  rw [crearPcb]
  split <;> rfl

@[simp] theorem vistaIo_crearPcb (path : List Byte) (tamanio : ℤ) (abs : Option (List Byte)) :
    vistaIo (crearPcb c k path tamanio abs) = vistaIo k := by
  rw [crearPcb]
  split <;> rfl

theorem enviados_crearPcb (path : List Byte) (tamanio : ℤ) (absoluto : Option (List Byte)) :
    (crearPcb c k path tamanio absoluto).enviados = k.enviados ∧
      (crearPcb c k path tamanio absoluto).cpus = k.cpus := by
  rw [crearPcb]
  split <;> exact ⟨rfl, rfl⟩

@[simp] theorem vistaCpus_elegirCandidato : vistaCpus (elegirCandidato c k) = vistaCpus k := by
  rw [elegirCandidato]
  split <;> rfl

@[simp] theorem vistaIo_elegirCandidato : vistaIo (elegirCandidato c k) = vistaIo k := by
  rw [elegirCandidato]
  split <;> rfl

@[simp] theorem vistaCpus_admitir (pcb : ℤ) (susp : Bool) :
    vistaCpus (admitir c k pcb susp) = vistaCpus k := by
  rw [admitir, vistaCpus_desalojar]
  rfl

@[simp] theorem vistaIo_admitir (pcb : ℤ) (susp : Bool) :
    vistaIo (admitir c k pcb susp) = vistaIo k := by
  rw [admitir, vistaIo_desalojar]
  rfl

@[simp] theorem vistaCpus_bloquearPorIo (pcb tiempo : ℤ) :
    vistaCpus (bloquearPorIo k pcb tiempo) = vistaCpus k := rfl

@[simp] theorem vistaIo_bloquearPorIo (pcb tiempo : ℤ) :
    vistaIo (bloquearPorIo k pcb tiempo) = vistaIo k := rfl

@[simp] theorem vistaCpus_bloquearPorDump (pcb : ℤ) :
    vistaCpus (bloquearProcesoPorDump k pcb) = vistaCpus k := rfl

@[simp] theorem vistaIo_bloquearPorDump (pcb : ℤ) :
    vistaIo (bloquearProcesoPorDump k pcb) = vistaIo k := rfl

@[simp] theorem vistaCpus_suspender (pcb : ℤ) : vistaCpus (suspender k pcb) = vistaCpus k := rfl
@[simp] theorem vistaIo_suspender (pcb : ℤ) : vistaIo (suspender k pcb) = vistaIo k := rfl
@[simp] theorem vistaCpus_desbloquear (pcb : ℤ) : vistaCpus (desbloquear k pcb) = vistaCpus k := rfl
@[simp] theorem vistaIo_desbloquear (pcb : ℤ) : vistaIo (desbloquear k pcb) = vistaIo k := rfl

@[simp] theorem vistaCpus_desbloquearSuspendido (pcb : ℤ) :
    vistaCpus (desbloquearSuspendido k pcb) = vistaCpus k := rfl

@[simp] theorem vistaIo_desbloquearSuspendido (pcb : ℤ) :
    vistaIo (desbloquearSuspendido k pcb) = vistaIo k := rfl

@[simp] theorem vistaCpus_resolverDump (pcb : ℤ) (ok : Bool) :
    vistaCpus (resolverDump k pcb ok) = vistaCpus k := by
  obtain ⟨_, _, _, _, _, _, h⟩ := resolverDump_eq k pcb ok
  rw [h]
  rfl

@[simp] theorem vistaIo_resolverDump (pcb : ℤ) (ok : Bool) :
    vistaIo (resolverDump k pcb ok) = vistaIo k := by
  obtain ⟨_, _, _, _, _, _, h⟩ := resolverDump_eq k pcb ok
  rw [h]
  rfl

@[simp] theorem vistaCpus_encolarSolicitud (g : ℕ) (pcb tiempo : ℤ) :
    vistaCpus (encolarSolicitud k g pcb tiempo) = vistaCpus k := by
  rw [encolarSolicitud]
  split <;> simp

@[simp] theorem vistaCpus_despacharGrupo (g : ℕ) : vistaCpus (despacharGrupo k g) =
  vistaCpus k := by
  rw [despacharGrupo]
  split <;> simp

@[simp] theorem vistaCpus_registrarInstancia (nombre : List Byte) (fd : ℕ) :
    vistaCpus (registrarInstancia k nombre fd).1 = vistaCpus k := by
  rw [registrarInstancia]
  split <;> rfl

@[simp] theorem vistaCpus_despertarDeIo (pid : ℤ) :
    vistaCpus (despertarDeIo c k pid) = vistaCpus k := by
  obtain ⟨_, _, _, _, _, _, h, hd, -⟩ := despertarDeIo_eq c k pid
  rw [h]
  simp only [vistaCpus, hd]

@[simp] theorem vistaIo_despertarDeIo (pid : ℤ) : vistaIo (despertarDeIo c k pid) = vistaIo k := by
  obtain ⟨_, _, _, _, _, _, h, -, hio⟩ := despertarDeIo_eq c k pid
  rw [h]
  simp only [vistaIo, hio]

@[simp] theorem vistaCpus_manejarFinIo (pid : ℤ) (fd : ℕ) :
    vistaCpus (manejarFinIo c k pid fd) = vistaCpus k := by
  rw [manejarFinIo]
  split <;> simp

@[simp] theorem vistaCpus_vaciarEspera (xs : List Solicitud) :
    vistaCpus (vaciarEspera xs k).1 = vistaCpus k := by
  obtain ⟨_, _, h⟩ := vaciarEspera_eq k xs
  rw [h]
  rfl

@[simp] theorem vistaCpus_manejarDesconexionIo (nombre : List Byte) (fd : ℕ) :
    vistaCpus (manejarDesconexionIo k nombre fd).1 = vistaCpus k := by
  rw [manejarDesconexionIo]
  split
  · rfl
  split
  · rfl
  split
  · rfl
  dsimp only
  split
  · exact vistaCpus_vaciarEspera k _
  · exact vistaCpus_guardarGrupo k _

end Funciones

section CortoPlazo

variable (c : ConfigKernel) (k : Kernel)

/-- The PCB as it is left by the planner. -/
def alDespachar (ahora : ℤ) (p : Pcb) : Pcb :=
  { p.cambiarEstado ahora .running with tiempoInicioEjecucionCpu := aInt ahora }

/-- The kernel after `pcb`, from the head of `cola_ready`, is given to a CPU. -/
def despachado (pcb : ℤ) (resto : List ℤ) (i cpu : ℕ) : Kernel :=
  { k with
    colas := Function.update (Function.update k.colas .ready resto) .running
      (k.colas .running ++ [pcb])
    ultimoCpuUsado := i
    cpus := Function.update k.cpus cpu
      { k.cpus cpu with cpuLibre := false, pcbEnEjecucion := some pcb }
    pcbs := Function.update k.pcbs pcb ((k.pcbs pcb).map (alDespachar k.reloj))
    enviados :=
      match k.pcbs pcb, (k.cpus cpu).socketDispatch with
      | some p, some fd => Function.update k.enviados (.dispatch fd)
          (k.enviados (.dispatch fd) ++ [.opPcb (p.cambiarEstado k.reloj .running)])
      | _, _ => k.enviados
    indefinido := k.indefinido || (k.pcbs pcb).isNone }

theorem enviarPcb_despachado (pcb : ℤ) (resto : List ℤ) (i cpu : ℕ) :
    enviarPcbACpu
      ((((({ k with colas := Function.update k.colas .ready resto, ultimoCpuUsado := i } :
        Kernel).conCpu
        cpu fun x => { x with cpuLibre := false }).agregar .running pcb).cambiarEstado pcb
          .running).conCpu cpu fun x => { x with pcbEnEjecucion := some pcb }) cpu pcb =
      despachado k pcb resto i cpu := by
  cases hp : k.pcbs pcb <;> cases hs : (k.cpus cpu).socketDispatch <;>
    simp [enviarPcbACpu, despachado, Kernel.conCpu, Kernel.agregar, Kernel.cambiarEstado,
      Kernel.conPcb,
      Kernel.enviar, alDespachar, hp, hs]

@[simp] theorem vistaIo_despachado (pcb : ℤ) (resto : List ℤ) (i cpu : ℕ) :
    vistaIo (despachado k pcb resto i cpu) = vistaIo k := by
  cases hp : k.pcbs pcb <;> cases hs : (k.cpus cpu).socketDispatch <;>
    simp [vistaIo, despachado, hp, hs]

/-- All that the short-term planner may do with its two tickets. -/
theorem planificar_casos :
    planificarCortoPlazo c k = k.postReady.postCpuLibre ∨
    planificarCortoPlazo c k = k.roto ∨
    (∃ pcb resto, ordenReady c k = pcb :: resto ∧ obtenerCpuLibre k = none ∧
      planificarCortoPlazo c k =
        { k with colas := Function.update k.colas .ready (pcb :: resto) }.postReady) ∨
    ∃ pcb resto i cpu, ordenReady c k = pcb :: resto ∧ obtenerCpuLibre k = some (i, cpu) ∧
      planificarCortoPlazo c k = despachado k pcb resto i cpu := by
  rw [planificarCortoPlazo]
  split
  · exact Or.inl rfl
  split
  · exact Or.inr (Or.inl rfl)
  split
  · exact Or.inl rfl
  · next pcb resto horden =>
      split
      · next hlibre => exact Or.inr (Or.inr (Or.inl ⟨pcb, resto, horden, hlibre, rfl⟩))
      · next i cpu hlibre =>
          exact Or.inr (Or.inr (Or.inr ⟨pcb, resto, i, cpu, horden, hlibre,
            enviarPcb_despachado k pcb resto i cpu⟩))

end CortoPlazo

section Acciones

variable (c : ConfigKernel) (k : Kernel) {a : Accion}

/-- The actions that change a device, send to one or open a connection. -/
def tocaIo : Accion → Bool
  | .conectaCpu _ | .conectaIo _ | .moduloSaluda _ _ | .escuchaEncola _ _ _ _ | .ioRegistra _ _
  | .ioResponde _ _ | .ioDespacha _ | .ioTermina _ _ _ _ | .ioDesconecta _ _ _ => true
  | _ => false

theorem vistaIo_efecto (ha : tocaIo a = false) :
    vistaIo ((programa c).efecto k a) = vistaIo k := by
  cases a with
  | conectaCpu _ | conectaIo _ | moduloSaluda _ _ | escuchaEncola _ _ _ _ | ioRegistra _ _
  | ioResponde _ _ | ioDespacha _ | ioTermina _ _ _ _ | ioDesconecta _ _ _ => cases ha
  | cortoPlanifica =>
    dsimp only [programa, transicion]
    rcases planificar_casos c k with h | h | ⟨pcb, resto, -, -, h⟩ | ⟨pcb, resto, i, cpu, -, -,
        h⟩ <;> rw [h]
    · rfl
    · rfl
    · rfl
    · exact vistaIo_despachado k pcb resto i cpu
  | largoElige => exact vistaIo_elegirCandidato c k
  | largoEnvia pcb susp | gestorEnvia pcb | dumpEnvia pcb =>
    dsimp only [programa, transicion]
    split <;> rfl
  | largoResuelve pcb susp ok =>
    dsimp only [programa, transicion]
    split
    · exact vistaIo_admitir c k pcb susp
    · rfl
  | gestorToma =>
    dsimp only [programa, transicion]
    split <;> rfl
  | gestorLibera pcb ok =>
    dsimp only [programa, transicion]
    split
    · rfl
    · split <;> rfl
  | suspensionVence q desde bloqueo =>
    dsimp only [programa, transicion]
    repeat' split
    all_goals rfl
  | suspensionResuelve ok =>
    dsimp only [programa, transicion]
    split <;> rfl
  | dumpResuelve pcb ok => exact vistaIo_resolverDump k pcb ok
  | cpuRegistra fd nombre =>
    dsimp only [programa, transicion, registrarCpu]
    split <;> rfl
  | cpuResponde fd cpu => exact vistaIo_enviar_dispatch k .handshakeOk fd
  | interruptRegistra fd nombre =>
    dsimp only [programa, transicion]
    split <;> rfl
  | interruptResponde fd => exact vistaIo_enviar_interrupt k .handshakeOk fd
  | recibeInitProc cpu fd path tamanio absoluto =>
    dsimp only [programa, transicion]
    split
    · rw [vistaIo_enviar_dispatch]
      exact vistaIo_crearPcb c (recibir k fd) path tamanio absoluto
    · exact vistaIo_crearPcb c (recibir k fd) path tamanio absoluto
  | recibeRespuesta cpu fd q pc motivo =>
    dsimp only [programa, transicion, recibirRespuesta]
    repeat' split
    all_goals rfl
  | recibeOtro cpu fd =>
    dsimp only [programa, transicion]
    split <;> rfl
  | escuchaBloquea cpu pcb dispositivo duracion =>
    dsimp only [programa, transicion]
    split <;> rfl
  | escuchaDesaloja cpu pcb => exact vistaIo_desalojar c k pcb
  | escuchaRevisa cpu =>
    dsimp only [programa, transicion]
    split <;> rfl
  | _ => rfl

/-- The actions that change a CPU, or what goes through a dispatch connection. -/
def tocaCpus : Accion → Bool
  | .conectaCpu _ | .conectaIo _ | .moduloSaluda _ _ | .cortoPlanifica | .cpuRegistra _ _
  | .cpuResponde _ _ | .recibeInitProc _ _ _ _ _ | .recibeRespuesta _ _ _ _ _ | .recibeOtro _ _
  | .escuchaLibera _ | .escuchaQuita _ | .escuchaFinalizaTomado _ _ | .escuchaCierra _
  | .moduloInitProc _ _ _ | .moduloTermina _ _ _ | .moduloFallaFetch _ _ => true
  | _ => false

theorem vistaCpus_efecto (ha : tocaCpus a = false) :
    vistaCpus ((programa c).efecto k a) = vistaCpus k := by
  cases a with
  | conectaCpu _ | conectaIo _ | moduloSaluda _ _ | cortoPlanifica | cpuRegistra _ _
  | cpuResponde _ _ | recibeInitProc _ _ _ _ _ | recibeRespuesta _ _ _ _ _ | recibeOtro _ _
  | escuchaLibera _ | escuchaQuita _ | escuchaFinalizaTomado _ _ | escuchaCierra _
  | moduloInitProc _ _ _ | moduloTermina _ _ _ | moduloFallaFetch _ _ => cases ha
  | largoElige => exact vistaCpus_elegirCandidato c k
  | largoEnvia pcb susp | gestorEnvia pcb | dumpEnvia pcb =>
    dsimp only [programa, transicion]
    split <;> rfl
  | largoResuelve pcb susp ok =>
    dsimp only [programa, transicion]
    split
    · exact vistaCpus_admitir c k pcb susp
    · rfl
  | gestorToma =>
    dsimp only [programa, transicion]
    split <;> rfl
  | gestorLibera pcb ok =>
    dsimp only [programa, transicion]
    split
    · rfl
    · split <;> rfl
  | suspensionVence q desde bloqueo =>
    dsimp only [programa, transicion]
    repeat' split
    all_goals rfl
  | suspensionResuelve ok =>
    dsimp only [programa, transicion]
    split <;> rfl
  | dumpResuelve pcb ok => exact vistaCpus_resolverDump k pcb ok
  | interruptRegistra fd nombre =>
    dsimp only [programa, transicion]
    split
    · next cpu _ =>
        simp only [vistaCpus, Kernel.conCpu]
        congr 1 <;>
        · funext d
          by_cases h : d = cpu
          · subst h
            simp
          · simp [h]
    · rfl
  | interruptResponde fd => exact vistaCpus_enviar_interrupt k .handshakeOk fd
  | escuchaBloquea cpu pcb dispositivo duracion =>
    dsimp only [programa, transicion]
    split <;> rfl
  | escuchaEncola cpu pcb grupo duracion => exact vistaCpus_encolarSolicitud k grupo pcb duracion
  | escuchaDesaloja cpu pcb => exact vistaCpus_desalojar c k pcb
  | escuchaRevisa cpu =>
    dsimp only [programa, transicion]
    split <;> rfl
  | ioRegistra fd nombre => exact vistaCpus_registrarInstancia k nombre fd
  | ioResponde fd grupo => exact vistaCpus_enviar_io k .handshakeOk fd
  | ioDespacha grupo => exact vistaCpus_despacharGrupo k grupo
  | ioTermina fd nombre terminadas q => exact vistaCpus_manejarFinIo c k q fd
  | ioDesconecta fd nombre terminadas => exact vistaCpus_manejarDesconexionIo k nombre fd
  | _ => rfl

end Acciones

end KernelVistas
