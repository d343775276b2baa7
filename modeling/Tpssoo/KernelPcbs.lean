import Tpssoo.KernelVistas

/-!
# What an action does to a PCB

No action changes the PID or the size of a process. Its state only changes by
`cambiar_estado`, at most once in an action, a block is only allocated under the next PID and
only `gestionar_procesos_finalizados` frees one.
-/
namespace KernelPcbs

open EnterosC Protocolo KernelEstado KernelFunciones KernelHilos KernelVistas Entrelazado

/-- The blocks and the next PID. -/
structure VistaPcbs where
  ultimoPid : ℤ
  pcbs : ℤ → Option Pcb

def vistaPcbs (k : Kernel) : VistaPcbs where
  ultimoPid := k.ultimoPid
  pcbs := k.pcbs

/-- One call of `cambiar_estado` at most, and writes to other fields. -/
structure Mudanza (p p' : Pcb) : Prop where
  pid : p'.pid = p.pid
  tamanio : p'.tamanioProceso = p.tamanioProceso
  estado : p'.estado = p.estado ∧ p'.metricas = p.metricas ∨
    p'.estado ≠ p.estado ∧ p'.metricas.ingresosABlocked =
      p.metricas.ingresosABlocked + if p'.estado = .blocked then 1 else 0

/-- What may become of the block of a PID; `M` is what it takes to free it. -/
inductive Cambio (M : Prop) (v v' : VistaPcbs) (pid : ℤ) : Prop where
  | igual (hn : v.ultimoPid ≤ v'.ultimoPid) (h : v'.pcbs pid = v.pcbs pid)
  | muda {p p' : Pcb} (hn : v.ultimoPid ≤ v'.ultimoPid) (h : v.pcbs pid = some p)
      (h' : v'.pcbs pid = some p') (hm : Mudanza p p')
  | nace {p' : Pcb} (hn : v'.ultimoPid = v.ultimoPid + 1) (hpid : pid = v.ultimoPid)
      (h' : v'.pcbs pid = some p') (hp : p'.pid = pid) (he : p'.estado = .new)
      (hm : p'.metricas.ingresosABlocked = 0)
  | muere (hM : M) (hn : v.ultimoPid ≤ v'.ultimoPid) (h' : v'.pcbs pid = none)

section Escrituras

theorem Mudanza.refl (p : Pcb) : Mudanza p p := ⟨rfl, rfl, Or.inl ⟨rfl, rfl⟩⟩

theorem mudanza_cambiarEstado (ahora : ℤ) (e : Estado) (p : Pcb) :
    Mudanza p (p.cambiarEstado ahora e) := by
  rw [Pcb.cambiarEstado]
  split
  · exact .refl p
  · next hne =>
      refine ⟨rfl, rfl, Or.inr ⟨fun heq => hne heq.symm, ?_⟩⟩
      cases e <;> cases hp : p.estado <;> simp [Metricas.acumular, Metricas.ingresar]

/-- Other fields may be written before the state changes. -/
theorem Mudanza.tras {p q p' : Pcb} (h : Mudanza q p') (hpid : q.pid = p.pid)
    (htam : q.tamanioProceso = p.tamanioProceso) (hest : q.estado = p.estado)
    (hmet : q.metricas = p.metricas) : Mudanza p p' := by
  refine ⟨h.pid.trans hpid, h.tamanio.trans htam, ?_⟩
  rw [← hest, ← hmet]
  exact h.estado

/-- Other fields may be written after the state changes. -/
theorem Mudanza.antes {p q p' : Pcb} (h : Mudanza p q) (hpid : p'.pid = q.pid)
    (htam : p'.tamanioProceso = q.tamanioProceso) (hest : p'.estado = q.estado)
    (hmet : p'.metricas = q.metricas) : Mudanza p p' := by
  refine ⟨hpid.trans h.pid, htam.trans h.tamanio, ?_⟩
  rw [hest, hmet]
  exact h.estado

theorem mudanza_actualizarRafaga (c : ConfigKernel) (ahora pc : ℤ) (motivo : Motivo) (p : Pcb) :
    Mudanza p (actualizarRafaga c ahora pc motivo p) := by
  refine (Mudanza.refl p).antes ?_ ?_ ?_ ?_ <;>
  · simp only [actualizarRafaga, calcularSiguienteRafaga]
    split
    · rfl
    · split <;> rfl

variable {M : Prop} {v v' : VistaPcbs} {pid : ℤ}

theorem Cambio.mismo (h : v' = v) : Cambio M v v' pid := by
  subst h
  exact .igual le_rfl rfl

theorem Cambio.mono {M' : Prop} (h : Cambio M v v' pid) (hM : M → M') : Cambio M' v v' pid := by
  rcases h with ⟨hn, h⟩ | ⟨hn, h, h', hm⟩ | ⟨hn, hpid, h', hp, he, hm⟩ | ⟨hM', hn, h'⟩
  · exact .igual hn h
  · exact .muda hn h h' hm
  · exact .nace hn hpid h' hp he hm
  · exact .muere (hM hM') hn h'

theorem cambio_update {p : ℤ} {f : Pcb → Pcb} (hf : ∀ x, Mudanza x (f x)) :
    Cambio M v ⟨v.ultimoPid, Function.update v.pcbs p ((v.pcbs p).map f)⟩ pid := by
  by_cases h : pid = p
  · subst h
    cases hp : v.pcbs pid with
    | none => exact .igual le_rfl (by simp [hp])
    | some x => exact .muda le_rfl hp (by simp) (hf x)
  · exact .igual le_rfl (Function.update_of_ne h _ _)

/-- Two writes to the same block. -/
theorem cambio_update_dos {p : ℤ} (f g : Pcb → Pcb) (hf : ∀ x, Mudanza x (g (f x))) :
    Cambio M v ⟨v.ultimoPid, Function.update (Function.update v.pcbs p ((v.pcbs p).map f)) p
      ((Function.update v.pcbs p ((v.pcbs p).map f) p).map g)⟩ pid := by
  rw [Function.update_idem, Function.update_self, Option.map_map]
  exact cambio_update hf

end Escrituras

section Marcos

variable (c : ConfigKernel) (k : Kernel)

@[simp] theorem vistaPcbs_desalojar (pcb : ℤ) :
    vistaPcbs (desalojarSiEsNecesarioSrt c k pcb) = vistaPcbs k := by
  obtain ⟨e, i, h, -⟩ := desalojar_eq c k pcb
  rw [h]
  rfl

@[simp] theorem vistaPcbs_elegirCandidato : vistaPcbs (elegirCandidato c k) = vistaPcbs k := by
  rw [elegirCandidato]
  split <;> rfl

@[simp] theorem vistaPcbs_encolarSolicitud (g : ℕ) (pcb t : ℤ) :
    vistaPcbs (encolarSolicitud k g pcb t) = vistaPcbs k := by
  rw [encolarSolicitud]
  split <;> rfl

@[simp] theorem vistaPcbs_despacharGrupo (g : ℕ) : vistaPcbs (despacharGrupo k g) =
  vistaPcbs k := by
  rw [despacharGrupo]
  split <;> rfl

@[simp] theorem vistaPcbs_registrarInstancia (nombre : List Byte) (fd : ℕ) :
    vistaPcbs (registrarInstancia k nombre fd).1 = vistaPcbs k := by
  rw [registrarInstancia]
  split <;> rfl

@[simp] theorem vistaPcbs_registrarCpu (fd : ℕ) (nombre : List Byte) :
    vistaPcbs (registrarCpu k fd nombre) = vistaPcbs k := by
  rw [registrarCpu]
  split <;> rfl

@[simp] theorem vistaPcbs_vaciarEspera (xs : List Solicitud) :
    vistaPcbs (vaciarEspera xs k).1 = vistaPcbs k := by
  obtain ⟨_, _, h⟩ := vaciarEspera_eq k xs
  rw [h]
  rfl

@[simp] theorem vistaPcbs_manejarDesconexionIo (nombre : List Byte) (fd : ℕ) :
    vistaPcbs (manejarDesconexionIo k nombre fd).1 = vistaPcbs k := by
  rw [manejarDesconexionIo]
  split
  · rfl
  split
  · rfl
  split
  · rfl
  dsimp only
  split
  · exact vistaPcbs_vaciarEspera k _
  · rfl

end Marcos

section Funciones

variable (c : ConfigKernel) (k : Kernel) {M : Prop} {pid : ℤ}

theorem cambio_cambiarEstado (pcb : ℤ) (e : Estado) :
    Cambio M (vistaPcbs k) (vistaPcbs (k.cambiarEstado pcb e)) pid :=
  cambio_update (mudanza_cambiarEstado k.reloj e)

theorem cambio_admitir (pcb : ℤ) (susp : Bool) :
    Cambio M (vistaPcbs k) (vistaPcbs (admitir c k pcb susp)) pid := by
  rw [admitir, vistaPcbs_desalojar]
  exact cambio_update (mudanza_cambiarEstado k.reloj .ready)

theorem cambio_planificar : Cambio M (vistaPcbs k) (vistaPcbs (planificarCortoPlazo c k)) pid := by
  rcases planificar_casos c k with h | h | ⟨pcb, resto, -, -, h⟩ | ⟨pcb, resto, i, cpu, -, -,
      h⟩ <;> rw [h]
  · exact .mismo rfl
  · exact .mismo rfl
  · exact .mismo rfl
  · exact cambio_update fun x => (mudanza_cambiarEstado k.reloj .running x).antes rfl rfl rfl rfl

theorem cambio_crearPcb (path : List Byte) (tamanio : ℤ) (absoluto : Option (List Byte)) :
    Cambio M (vistaPcbs k) (vistaPcbs (crearPcb c k path tamanio absoluto)) pid := by
  have hvista : ∃ p', vistaPcbs (crearPcb c k path tamanio absoluto) =
      ⟨k.ultimoPid + 1, Function.update k.pcbs k.ultimoPid (some p')⟩ ∧ p'.pid = k.ultimoPid ∧
        p'.estado = .new ∧ p'.metricas.ingresosABlocked = 0 := by
    rw [crearPcb]
    split <;> exact ⟨_, rfl, rfl, rfl, rfl⟩
  obtain ⟨p', hp', hpid, hest, hing⟩ := hvista
  rw [hp']
  by_cases h : pid = k.ultimoPid
  · subst h
    exact .nace rfl rfl (Function.update_self _ _ _) hpid hest hing
  · exact .igual (Int.le_add_one le_rfl) (Function.update_of_ne h _ _)

theorem cambio_bloquearPorIo (pcb t : ℤ) :
    Cambio M (vistaPcbs k) (vistaPcbs (bloquearPorIo k pcb t)) pid :=
  cambio_update_dos (fun p => { p with tiempoBloqueoIo := t }) (Pcb.cambiarEstado k.reloj .blocked)
    (fun _ => (mudanza_cambiarEstado k.reloj .blocked _).tras rfl rfl rfl rfl)

theorem cambio_desbloquear (pcb : ℤ) : Cambio M (vistaPcbs k) (vistaPcbs (desbloquear k pcb)) pid :=
  cambio_update (mudanza_cambiarEstado k.reloj .ready)

theorem cambio_desbloquearSuspendido (pcb : ℤ) :
    Cambio M (vistaPcbs k) (vistaPcbs (desbloquearSuspendido k pcb)) pid :=
  cambio_update (mudanza_cambiarEstado k.reloj .suspendedReady)

theorem cambio_terminarDump (q : ℤ) : Cambio M (vistaPcbs k)
    (vistaPcbs (terminarDump k q)) pid := by
  rw [terminarDump]
  split
  · exact .mismo rfl
  · exact .mismo rfl
  split
  · exact cambio_desbloquear k _
  split
  · exact cambio_desbloquearSuspendido k _
  · exact .mismo rfl

theorem cambio_resolverDump (pcb : ℤ) (ok : Bool) :
    Cambio M (vistaPcbs k) (vistaPcbs (resolverDump k pcb ok)) pid := by
  rw [resolverDump]
  split
  · exact .mismo rfl
  split
  · exact cambio_terminarDump k _
  split
  · exact .mismo rfl
  · exact .mismo rfl
  · next q _ =>
      obtain ⟨colas, h⟩ := quitarBloqueado_eq k q
      rw [h]
      exact cambio_cambiarEstado k q .exit

theorem cambio_despertarDeIo (q : ℤ) :
    Cambio M (vistaPcbs k) (vistaPcbs (despertarDeIo c k q)) pid := by
  rw [despertarDeIo]
  split
  · exact .mismo rfl
  · exact .mismo rfl
  split
  · rw [vistaPcbs_desalojar]
    exact cambio_desbloquear k _
  split
  · exact cambio_desbloquearSuspendido k _
  · exact .mismo rfl

theorem cambio_manejarFinIo (q : ℤ) (fd : ℕ) :
    Cambio M (vistaPcbs k) (vistaPcbs (manejarFinIo c k q fd)) pid := by
  rw [manejarFinIo]
  split
  · exact .mismo rfl
  · exact cambio_despertarDeIo c k q

theorem cambio_recibirRespuesta (cpu fd : ℕ) (q pc : ℤ) (motivo : Motivo) :
    Cambio M (vistaPcbs k) (vistaPcbs (recibirRespuesta k c cpu fd q pc motivo)) pid := by
  rw [recibirRespuesta]
  split
  · exact .mismo rfl
  split
  · exact .mismo rfl
  split
  · exact .mismo rfl
  · exact cambio_update (mudanza_actualizarRafaga c k.reloj pc motivo)

theorem cambio_gestorLibera (pcb : ℤ) (ok : Bool) :
    Cambio (pid = pcb) (vistaPcbs k) (vistaPcbs ((programa c).efecto k
      (.gestorLibera pcb ok))) pid := by
  dsimp only [programa, transicion]
  split
  · exact .mismo rfl
  · have hvista : vistaPcbs (if ok then k.postNewOMemoria else k) = vistaPcbs k := by
      split <;> rfl
    obtain ⟨hn, hpcbs⟩ := VistaPcbs.mk.inj hvista
    by_cases h : pid = pcb
    · subst h
      exact .muere rfl hn.ge (Function.update_self _ _ _)
    · exact .igual hn.ge ((Function.update_of_ne h _ _).trans (congrFun hpcbs pid))

/-- What one action does to the block of a PID. -/
theorem cambio_efecto (a : Accion) :
    Cambio (∃ ok, a = .gestorLibera pid ok) (vistaPcbs k)
      (vistaPcbs ((programa c).efecto k a)) pid := by
  cases a with
  | largoElige => exact .mismo (vistaPcbs_elegirCandidato c k)
  | largoEnvia pcb susp | gestorEnvia pcb | dumpEnvia pcb =>
    refine .mismo ?_
    dsimp only [programa, transicion]
    split <;> rfl
  | largoResuelve pcb susp ok =>
    cases ok with
    | false => exact .mismo rfl
    | true => exact cambio_admitir c k pcb susp
  | cortoPlanifica => exact cambio_planificar c k
  | gestorToma =>
    dsimp only [programa, transicion]
    split
    · exact .mismo rfl
    · exact cambio_cambiarEstado _ _ .exit
  | gestorLibera pcb ok =>
    refine (cambio_gestorLibera c k pcb ok).mono ?_
    rintro rfl
    exact ⟨ok, rfl⟩
  | suspensionVence q desde bloqueo =>
    dsimp only [programa, transicion]
    split
    · exact .mismo rfl
    · exact .mismo rfl
    split
    · exact cambio_cambiarEstado k _ .suspendedBlocked
    · exact .mismo rfl
  | suspensionResuelve ok =>
    refine .mismo ?_
    dsimp only [programa, transicion]
    split <;> rfl
  | dumpFallaConexion pcb => exact cambio_cambiarEstado k pcb .exit
  | dumpResuelve pcb ok => exact cambio_resolverDump k pcb ok
  | cpuRegistra fd nombre => exact .mismo (vistaPcbs_registrarCpu k fd nombre)
  | interruptRegistra fd nombre =>
    refine .mismo ?_
    dsimp only [programa, transicion]
    split <;> rfl
  | recibeInitProc cpu fd path tamanio absoluto =>
    dsimp only [programa, transicion]
    split
    · exact cambio_crearPcb c (recibir k fd) path tamanio absoluto
    · exact cambio_crearPcb c (recibir k fd) path tamanio absoluto
  | recibeRespuesta cpu fd q pc motivo => exact cambio_recibirRespuesta c k cpu fd q pc motivo
  | recibeOtro cpu fd =>
    refine .mismo ?_
    dsimp only [programa, transicion]
    split <;> rfl
  | escuchaCambiaExit cpu pcb => exact cambio_cambiarEstado k pcb .exit
  | escuchaBloquea cpu pcb dispositivo duracion =>
    dsimp only [programa, transicion]
    split
    · exact .mismo rfl
    · exact cambio_bloquearPorIo k pcb duracion
  | escuchaEncola cpu pcb grupo duracion =>
    exact .mismo (vistaPcbs_encolarSolicitud k grupo pcb duracion)
  | escuchaBloqueaDump cpu pcb => exact cambio_cambiarEstado k pcb .blocked
  | escuchaCambiaReady cpu pcb => exact cambio_cambiarEstado k pcb .ready
  | escuchaDesaloja cpu pcb => exact .mismo (vistaPcbs_desalojar c k pcb)
  | escuchaFinaliza cpu pcb => exact cambio_cambiarEstado k pcb .exit
  | escuchaRevisa cpu =>
    dsimp only [programa, transicion]
    split
    · exact .mismo rfl
    · exact cambio_cambiarEstado k _ .exit
  | ioRegistra fd nombre => exact .mismo (vistaPcbs_registrarInstancia k nombre fd)
  | ioDespacha grupo => exact .mismo (vistaPcbs_despacharGrupo k grupo)
  | ioTermina fd nombre terminadas q => exact cambio_manejarFinIo c k q fd
  | ioDesconecta fd nombre terminadas => exact .mismo (vistaPcbs_manejarDesconexionIo k nombre fd)
  | ioFinaliza pcb resto => exact cambio_cambiarEstado k pcb .exit
  | _ => exact .mismo rfl

end Funciones

end KernelPcbs
