import Tpssoo.KernelSalientes
import Tpssoo.LineaCpu

/-!
# The dispatch connections follow their protocol

Each step of the kernel or of a CPU module is a step of the protocol of one dispatch connection,
and leaves the others as they were. So while the names of the CPUs are different, each
connection is in one of the phases of the exchange, about the process that the kernel has in
execution in that CPU.
-/
namespace KernelLineas

open EnterosC Protocolo KernelEstado KernelFunciones KernelHilos KernelVistas KernelPcbs
open KernelSaludos KernelConexiones KernelInterrupciones KernelCpus KernelEjecucion KernelSalientes
open LineaCpu Entrelazado Tartamudeo

/-- A thread that has still to answer the handshake of a dispatch connection. -/
def saludaDe : Hilo → Option ℕ
  | .cpuRegistra fd _ | .cpuResponde fd _ => some fd
  | _ => none

def conexionDe (s : Sistema Kernel Hilo) (fd : ℕ) : Conexion where
  modulos := s.hilos.filter fun h => moduloDe h = some fd
  enviados := s.comun.enviados (.dispatch fd)
  entrantes := s.comun.entrantes fd
  cerrada := s.comun.cerrados fd
  saludan := (s.hilos.filterMap saludaDe).count fd

/-- The process that a CPU executes, unless a thread handles its response already. -/
def enEjecucion (s : Sistema Kernel Hilo) (cpu : ℕ) : Option ℤ :=
  if cpu ∈ s.hilos.filterMap manejaDe then none else (s.comun.cpus cpu).pcbEnEjecucion

/-- The process that the kernel has in execution at the other end of a connection. -/
inductive Ocupa (s : Sistema Kernel Hilo) (fd : ℕ) : Option ℤ → Prop where
  | de (cpu : ℕ) (h : (s.comun.cpus cpu).socketDispatch = some fd) : Ocupa s fd (enEjecucion s cpu)
  | nadie (h : ∀ cpu, (s.comun.cpus cpu).socketDispatch ≠ some fd) : Ocupa s fd none

section Efectos

variable {c : ConfigKernel} {k : Kernel} {a : Accion}

/-- The modules that close their connection. -/
def cierra : Accion → Bool
  | .moduloAborta _ _ | .moduloAbortaInterrupt _ _ | .moduloDesconecta _ => true
  | _ => false

theorem cerrados_efecto (ha : cierra a = false) :
    ((programa c).efecto k a).cerrados = k.cerrados := by
  have hdesaloja : ∀ (k' : Kernel) pcb,
      (desalojarSiEsNecesarioSrt c k' pcb).cerrados = k'.cerrados := by
    intro k' pcb
    obtain ⟨_, _, h, -⟩ := desalojar_eq c k' pcb
    rw [h]
  have hcrear : ∀ (k' : Kernel) path tamanio absoluto,
      (crearPcb c k' path tamanio absoluto).cerrados = k'.cerrados := by
    intro k' path tamanio absoluto
    rw [crearPcb]
    split <;> rfl
  cases a with
  | moduloAborta _ _ | moduloAbortaInterrupt _ _ | moduloDesconecta _ => cases ha
  | largoElige =>
    dsimp only [programa, transicion, elegirCandidato]
    split <;> rfl
  | largoEnvia pcb susp | gestorEnvia pcb | dumpEnvia pcb =>
    dsimp only [programa, transicion]
    split <;> rfl
  | largoResuelve pcb susp ok =>
    cases ok with
    | false => rfl
    | true =>
      obtain ⟨_, _, h, -⟩ := admitir_eq c k pcb susp
      exact (congrArg Kernel.cerrados h :)
  | cortoPlanifica =>
    dsimp only [programa, transicion]
    rcases planificar_casos c k with h | h | ⟨pcb, resto, -, -, h⟩ | ⟨pcb, resto, i, d, -, -,
        h⟩ <;> rw [h] <;> rfl
  | gestorToma | gestorLibera pcb ok | suspensionVence pid desde bloqueo | suspensionResuelve ok
  | interruptRegistra fd nombre | escuchaBloquea d pcb dispositivo duracion
  | escuchaRevisa d | recibeOtro d fd =>
    dsimp only [programa, transicion]
    repeat' split
    all_goals rfl
  | dumpResuelve pcb ok =>
    obtain ⟨_, _, _, _, _, _, h⟩ := resolverDump_eq k pcb ok
    dsimp only [programa, transicion]
    rw [h]
  | cpuRegistra fd nombre =>
    dsimp only [programa, transicion, registrarCpu]
    split <;> rfl
  | recibeInitProc d fd path tamanio absoluto =>
    dsimp only [programa, transicion]
    split <;> exact hcrear (recibir k fd) path tamanio absoluto
  | recibeRespuesta d fd q pc motivo =>
    dsimp only [programa, transicion, recibirRespuesta]
    repeat' split
    all_goals rfl
  | escuchaEncola d pcb grupo duracion =>
    dsimp only [programa, transicion, encolarSolicitud]
    split <;> rfl
  | escuchaDesaloja d pcb => exact hdesaloja k pcb
  | ioRegistra fd nombre =>
    dsimp only [programa, transicion, registrarInstancia]
    split <;> rfl
  | ioDespacha grupo =>
    dsimp only [programa, transicion, despacharGrupo]
    split <;> rfl
  | ioTermina fd nombre terminadas pid =>
    dsimp only [programa, transicion, manejarFinIo]
    split
    · rfl
    · obtain ⟨_, _, _, _, _, _, h, -⟩ := despertarDeIo_eq c k pid
      rw [guardarGrupo, h]
  | ioDesconecta fd nombre terminadas =>
    dsimp only [programa, transicion, manejarDesconexionIo]
    split
    · rfl
    split
    · rfl
    split
    · rfl
    split
    · next g _ _ =>
        obtain ⟨_, _, h⟩ := vaciarEspera_eq k g.colaEsperaCompartida
        rw [h]
    · rfl
  | _ => rfl

/-- The dispatch connection of a CPU stays until its thread closes it. -/
theorem socket_igual (hreg : ∀ fd nombre, a ≠ .cpuRegistra fd nombre)
    (hcierra : ∀ d, a ≠ .escuchaCierra d) (cpu : ℕ) :
    (((programa c).efecto k a).cpus cpu).socketDispatch = (k.cpus cpu).socketDispatch := by
  cases hto : tocaCpus a with
  | false => exact congrFun (congrArg VistaCpus.socket (vistaCpus_efecto c k hto)) cpu
  | true =>
    cases a with
    | cortoPlanifica =>
      dsimp only [programa, transicion]
      rcases planificar_casos c k with h | h | ⟨pcb, resto, -, -, h⟩ | ⟨pcb, resto, i, d, -, -,
          h⟩ <;> rw [h]
      · rfl
      · rfl
      · rfl
      · dsimp only [despachado]
        by_cases heq : cpu = d
        · subst heq
          rw [Function.update_self]
        · rw [Function.update_of_ne heq]
    | cpuRegistra fd nombre => exact absurd rfl (hreg fd nombre)
    | escuchaCierra d => exact absurd rfl (hcierra d)
    | recibeInitProc d fd path tamanio absoluto =>
      have hcrear := (enviados_crearPcb c (recibir k fd) path tamanio absoluto).2
      dsimp only [programa, transicion]
      split
      · rw [Kernel.enviar, hcrear]
        rfl
      · rw [hcrear]
        rfl
    | recibeRespuesta d fd q pc motivo =>
      dsimp only [programa, transicion, recibirRespuesta]
      repeat' split
      all_goals rfl
    | recibeOtro d fd =>
      dsimp only [programa, transicion]
      split <;> rfl
    | escuchaLibera d | escuchaFinalizaTomado d _ =>
      by_cases heq : cpu = d
      · subst heq
        exact (congrArg Cpu.socketDispatch (Function.update_self cpu _ k.cpus) :)
      · exact congrArg Cpu.socketDispatch (Function.update_of_ne heq _ _)
    | _ => first | rfl | cases hto

/-- The actions that may touch a dispatch connection. -/
def tocaLinea : Accion → Bool
  | .conectaCpu _ | .cpuResponde _ _ | .cortoPlanifica | .recibeInitProc _ _ _ _ _
  | .recibeRespuesta _ _ _ _ _ | .recibeOtro _ _ | .moduloSaluda _ _ | .moduloSaludaInterrupt _ _
  | .moduloAborta _ _ | .moduloAbortaInterrupt _ _ | .moduloLee _ | .moduloInterrumpe _
  | .moduloInitProc _ _ _ | .moduloTermina _ _ _ | .moduloFallaFetch _ _
  | .moduloDesconecta _ => true
  | _ => false

theorem paquetes_efecto (ha : tocaLinea a = false) (fd : ℕ) :
    ((programa c).efecto k a).enviados (.dispatch fd) = k.enviados (.dispatch fd) ∧
      ((programa c).efecto k a).entrantes fd = k.entrantes fd := by
  cases hto : tocaCpus a with
  | false =>
    have h := vistaCpus_efecto c k hto
    exact ⟨congrFun (congrArg VistaCpus.enviados h) fd, congrFun
      (congrArg VistaCpus.entrantes h) fd⟩
  | true =>
    cases a with
    | cpuRegistra fd nombre =>
      dsimp only [programa, transicion, registrarCpu]
      split <;> exact ⟨rfl, rfl⟩
    | conectaIo _ | escuchaLibera _ | escuchaQuita _ | escuchaFinalizaTomado _ _
    | escuchaCierra _ => exact ⟨rfl, rfl⟩
    | conectaCpu _ | cpuResponde _ _ | cortoPlanifica | recibeInitProc _ _ _ _ _
    | recibeRespuesta _ _ _ _ _ | recibeOtro _ _ | moduloSaluda _ _ | moduloInitProc _ _ _
    | moduloTermina _ _ _ | moduloFallaFetch _ _ => cases ha
    | _ => cases hto

theorem saluda_destino (hconecta : ∀ nombre, a ≠ .conectaCpu nombre)
    (hresponde : ∀ fd cpu, a ≠ .cpuResponde fd cpu) :
    ((programa c).destino k a).filterMap saludaDe = [(programa c).origen a].filterMap saludaDe := by
  cases a with
  | conectaCpu nombre => exact absurd rfl (hconecta nombre)
  | cpuResponde fd cpu => exact absurd rfl (hresponde fd cpu)
  | recibeRespuesta cpu fd q pc motivo =>
    dsimp only [programa, transicion, trasRespuesta]
    repeat' split
    all_goals cases motivo <;> rfl
  | _ =>
    dsimp only [programa, transicion, trasDump]
    repeat' split
    all_goals rfl

/-- A thread leaves a CPU when its connection has closed and nothing is left in it. -/
theorem despide_destino {cpu : ℕ} (h : cpu ∈ ((programa c).destino k a).filterMap despideDe) :
    (∃ fd, a = .recibeNull cpu fd) ∨ despideDe ((programa c).origen a) = some cpu := by
  cases a with
  | recibeNull cpu' fd =>
    cases List.mem_singleton.mp h
    exact Or.inl ⟨fd, rfl⟩
  | escuchaQuita cpu' | escuchaFinalizaTomado cpu' pcb =>
    cases List.mem_singleton.mp h
    exact Or.inr rfl
  | escuchaRevisa cpu' =>
    dsimp only [programa, transicion] at h
    split at h <;>
    · cases List.mem_singleton.mp h
      exact Or.inr rfl
  | recibeRespuesta cpu' fd q pc motivo =>
    dsimp only [programa, transicion, trasRespuesta] at h
    repeat' split at h
    all_goals cases motivo <;> cases h
  | _ =>
    dsimp only [programa, transicion, trasDump] at h
    repeat' split at h
    all_goals cases h

end Efectos

section Conexiones

variable {k k' : Kernel} {l r ds : List Hilo} {o : Hilo} {fd : ℕ}

theorem conexion_medio : conexionDe ⟨k', l ++ (ds ++ r)⟩ fd =
    { modulos := l.filter (fun h => moduloDe h = some fd) ++
        (ds.filter (fun h => moduloDe h = some fd) ++ r.filter fun h => moduloDe h = some fd)
      enviados := k'.enviados (.dispatch fd)
      entrantes := k'.entrantes fd
      cerrada := k'.cerrados fd
      saludan := (l.filterMap saludaDe).count fd +
        ((ds.filterMap saludaDe).count fd + (r.filterMap saludaDe).count fd) } := by
  rw [conexionDe, List.filter_append, List.filter_append, List.filterMap_append,
    List.filterMap_append, List.count_append, List.count_append]

theorem conexion_igual
    (hmod : ds.filter (fun h => moduloDe h = some fd) = [o].filter fun h => moduloDe h = some fd)
    (hsal : (ds.filterMap saludaDe).count fd = ([o].filterMap saludaDe).count fd)
    (henv : k'.enviados (.dispatch fd) = k.enviados (.dispatch fd))
    (hent : k'.entrantes fd = k.entrantes fd) (hcer : k'.cerrados fd = k.cerrados fd) :
    conexionDe ⟨k', l ++ (ds ++ r)⟩ fd = conexionDe ⟨k, l ++ o :: r⟩ fd := by
  rw [← List.singleton_append (x := o), conexion_medio, conexion_medio, hmod, hsal, henv,
    hent, hcer]

/-- A module is the only one of its connection. -/
theorem modulos_solo {x : Option ℤ} (h : Regular x (conexionDe ⟨k, l ++ o :: r⟩ fd))
    (ho : moduloDe o = some fd) : l.filter (fun h => moduloDe h = some fd) = [] ∧
      r.filter (fun h => moduloDe h = some fd) = [] := by
  have huna := h.una
  rw [← List.singleton_append (x := o), conexion_medio,
    List.filter_cons_of_pos (by simpa using ho)] at huna
  simp only [List.filter_nil, List.length_append, List.length_cons, List.length_nil] at huna
  exact ⟨List.length_eq_zero_iff.mp (by omega), List.length_eq_zero_iff.mp (by omega)⟩

theorem filtro_uno {d : Hilo} {fd₀ : ℕ} (hd : moduloDe d = some fd₀) :
    [d].filter (fun h => moduloDe h = some fd) = if fd = fd₀ then [d] else [] := by
  split
  · next h => exact List.filter_cons_of_pos (by simp [hd, h])
  · next h => exact List.filter_cons_of_neg (by simp [hd, Ne.symm h])

/-- A step of the module of a connection, which leaves the others as they were. -/
theorem mueve_avanza {x : Option ℤ} {d : Hilo} {ys : List PaqueteCpu} {fd₀ : ℕ}
    (hR : Regular x (conexionDe ⟨k, l ++ o :: r⟩ fd)) (ho : moduloDe o = some fd₀)
    (hds : ∀ fd, ds.filter (fun h => moduloDe h = some fd) = if fd = fd₀ then [d] else [])
    (hsal : ds.filterMap saludaDe = [o].filterMap saludaDe) (henv : k'.enviados = k.enviados)
    (hent : k'.entrantes = Function.update k.entrantes fd₀ (k.entrantes fd₀ ++ ys))
    (hcer : k'.cerrados = k.cerrados) (ha : Avanza (k.enviados (.dispatch fd₀)) o d ys) :
    Mueve x (conexionDe ⟨k, l ++ o :: r⟩ fd) x (conexionDe ⟨k', l ++ (ds ++ r)⟩ fd) := by
  by_cases hfd : fd = fd₀
  · subst hfd
    obtain ⟨hl, hr⟩ := modulos_solo hR ho
    have hantes : (conexionDe ⟨k, l ++ o :: r⟩ fd).modulos = [o] := by
      rw [← List.singleton_append (x := o), conexion_medio, hl, hr, filtro_uno ho, if_pos rfl]
      rfl
    have hdespues : conexionDe ⟨k', l ++ (ds ++ r)⟩ fd =
        { conexionDe ⟨k, l ++ o :: r⟩ fd with
          modulos := [d], entrantes := k.entrantes fd ++ ys } := by
      rw [← List.singleton_append (x := o), conexion_medio, conexion_medio, hl, hr, hds, if_pos rfl,
        hsal, henv, hent, hcer, Function.update_self]
      rfl
    rw [hdespues]
    exact .avanza _ _ o d ys hantes ha
  · have hmod : ds.filter (fun h => moduloDe h = some fd) =
        [o].filter fun h => moduloDe h = some fd := by
      rw [hds, filtro_uno ho, if_neg hfd, if_neg hfd]
    have higual : conexionDe ⟨k', l ++ (ds ++ r)⟩ fd = conexionDe ⟨k, l ++ o :: r⟩ fd :=
      conexion_igual hmod (by rw [hsal]) (by rw [henv]) (by rw [hent, Function.update_of_ne hfd])
        (by rw [hcer])
    rw [higual]
    exact .queda _ _

/-- The module of a connection closes it. -/
theorem mueve_cierra {x : Option ℤ} {fd₀ : ℕ}
    (hR : Regular x (conexionDe ⟨k, l ++ o :: r⟩ fd)) (ho : moduloDe o = some fd₀)
    (hsal : saludaDe o = none) (henv : k'.enviados = k.enviados)
    (hent : k'.entrantes = k.entrantes)
    (hcer : k'.cerrados = Function.update k.cerrados fd₀ true) :
    Mueve x (conexionDe ⟨k, l ++ o :: r⟩ fd) x (conexionDe ⟨k', l ++ ([] ++ r)⟩ fd) := by
  have hsal' : [o].filterMap saludaDe = [] := List.filterMap_cons_none hsal
  by_cases hfd : fd = fd₀
  · subst hfd
    obtain ⟨hl, hr⟩ := modulos_solo hR ho
    have hantes : (conexionDe ⟨k, l ++ o :: r⟩ fd).modulos = [o] := by
      rw [← List.singleton_append (x := o), conexion_medio, hl, hr, filtro_uno ho, if_pos rfl]
      rfl
    have hdespues : conexionDe ⟨k', l ++ ([] ++ r)⟩ fd =
        { conexionDe ⟨k, l ++ o :: r⟩ fd with modulos := [], cerrada := true } := by
      rw [← List.singleton_append (x := o), conexion_medio, conexion_medio, hl, hr, hsal', henv,
        hent, hcer, Function.update_self]
      rfl
    rw [hdespues]
    exact .cierra _ _ (hantes ▸ List.cons_ne_nil o [])
  · have hmod : [].filter (fun h => moduloDe h = some fd) =
        [o].filter fun h => moduloDe h = some fd := by
      rw [filtro_uno ho, if_neg hfd, List.filter_nil]
    have higual : conexionDe ⟨k', l ++ ([] ++ r)⟩ fd = conexionDe ⟨k, l ++ o :: r⟩ fd :=
      conexion_igual hmod (by rw [hsal', List.filterMap_nil]) (by rw [henv]) (by rw [hent])
        (by rw [hcer, Function.update_of_ne hfd])
    rw [higual]
    exact .queda _ _

end Conexiones

section Ocupaciones

variable {s s' : Sistema Kernel Hilo} {fd cpu : ℕ} {o : Option ℤ}

theorem enEjecucion_eq_some {p : ℤ} : enEjecucion s cpu = some p ↔ Ejecuta s cpu p := by
  rw [enEjecucion, Ejecuta]
  split
  · next h => exact iff_of_false (fun h' => by cases h') fun h' => h'.2 h
  · next h => exact (and_iff_left h).symm

theorem enEjecucion_congr (h : ∀ p, Ejecuta s' cpu p ↔ Ejecuta s cpu p) :
    enEjecucion s' cpu = enEjecucion s cpu :=
  Option.ext fun p => enEjecucion_eq_some.trans ((h p).trans enEjecucion_eq_some.symm)

theorem Ocupa.igual
    (hs : ∀ cpu, (s'.comun.cpus cpu).socketDispatch = (s.comun.cpus cpu).socketDispatch)
    (he : ∀ cpu, (s.comun.cpus cpu).socketDispatch = some fd →
      enEjecucion s' cpu = enEjecucion s cpu) (h : Ocupa s' fd o) : Ocupa s fd o := by
  cases h with
  | de cpu h =>
    have hcpu := (hs cpu).symm.trans h
    rw [he cpu hcpu]
    exact .de cpu hcpu
  | nadie h => exact .nadie fun cpu hcpu => h cpu ((hs cpu).trans hcpu)

/-- One CPU at most has each connection. -/
theorem Ocupa.unica (hI : Conexiones s) (h : Ocupa s fd o)
    (hcpu : (s.comun.cpus cpu).socketDispatch = some fd) : o = enEjecucion s cpu := by
  cases h with
  | de cpu' h => rw [hI.inyectiva cpu' cpu fd h hcpu]
  | nadie h => exact absurd hcpu (h cpu)

end Ocupaciones

theorem ocupa_alguno (s : Sistema Kernel Hilo) (fd : ℕ) : ∃ o, Ocupa s fd o := by
  by_cases hcpu : ∃ cpu, (s.comun.cpus cpu).socketDispatch = some fd
  · obtain ⟨cpu, hcpu⟩ := hcpu
    exact ⟨_, .de cpu hcpu⟩
  · exact ⟨none, .nadie (not_exists.mp hcpu)⟩

/-- What holds of the dispatch connections after a run. -/
structure Lineas (s : Sistema Kernel Hilo) : Prop where
  conexiones : Conexiones s
  pids : ∀ q p, s.comun.pcbs q = some p → p.pid = q
  conocidas : ∀ cpu fd, (s.comun.cpus cpu).socketDispatch = some fd → cpu < s.comun.totalCpus
  escuchan : ∀ cpu x, .escuchaRecibe cpu x ∈ s.hilos → (s.comun.cpus cpu).socketDispatch = x
  nuevas : ∀ fd, s.comun.totalConexiones ≤ fd → conexionDe s fd = vacia
  despedidas : ∀ cpu ∈ s.hilos.filterMap despideDe, ∀ fd,
    (s.comun.cpus cpu).socketDispatch = some fd →
      s.comun.cerrados fd = true ∧ s.comun.entrantes fd = []
  regulares : ∀ fd o, Ocupa s fd o → Regular o (conexionDe s fd)

section Pasos

variable {c : ConfigKernel} {k : Kernel} {l r : List Hilo} {a : Accion} {fd : ℕ} {o : Option ℤ}

theorem ocupa_otra (ha : asigna a = false) (hcierra : ∀ d, a ≠ .escuchaCierra d)
    (h : Ocupa ⟨(programa c).efecto k a, l ++ ((programa c).destino k a ++ r)⟩ fd o) :
    Ocupa ⟨k, l ++ (programa c).origen a :: r⟩ fd o := by
  refine h.igual (socket_igual ?_ hcierra) fun cpu _ => enEjecucion_congr
    (ejecuta_igual (cpus_igual ha).1 (maneja_igual ha) cpu)
  rintro fd nombre rfl
  cases ha

theorem conexion_quieta (ha : tocaLinea a = false) :
    conexionDe ⟨(programa c).efecto k a, l ++ ((programa c).destino k a ++ r)⟩ fd =
      conexionDe ⟨k, l ++ (programa c).origen a :: r⟩ fd := by
  have hmodulo : tocaModulo a = false := by
    cases a with
    | conectaCpu _ | moduloSaluda _ _ | moduloSaludaInterrupt _ _ | moduloLee _
    | moduloInterrumpe _ | moduloInitProc _ _ _ | moduloTermina _ _ _
    | moduloFallaFetch _ _ => cases ha
    | _ => rfl
  have horigen : moduloDe ((programa c).origen a) = none := by
    cases a with
    | moduloSaluda _ _ | moduloSaludaInterrupt _ _ | moduloAborta _ _
    | moduloAbortaInterrupt _ _ | moduloLee _ | moduloInterrumpe _ | moduloInitProc _ _ _
    | moduloTermina _ _ _ | moduloFallaFetch _ _ | moduloDesconecta _ => cases ha
    | _ => rfl
  have hcierra : cierra a = false := by
    cases a with
    | moduloAborta _ _ | moduloAbortaInterrupt _ _ | moduloDesconecta _ => cases ha
    | _ => rfl
  obtain ⟨henv, hent⟩ := paquetes_efecto (c := c) (k := k) ha fd
  refine conexion_igual ?_ ?_ henv hent (congrFun (cerrados_efecto hcierra) fd)
  · rw [List.filter_eq_nil_iff.mpr, List.filter_eq_nil_iff.mpr]
    · intro h hh
      rw [List.mem_singleton.mp hh, horigen]
      simp
    · intro h hh
      rw [modulo_destino hmodulo h hh]
      simp
  · rw [saluda_destino]
    · rintro nombre rfl
      cases ha
    · rintro fd cpu rfl
      cases ha

/-- The planner sends a PCB to the CPU that it has found free. -/
theorem mueve_planifica (hA : Asignados ⟨k, l ++ (programa c).origen .cortoPlanifica :: r⟩)
    (hI : Lineas ⟨k, l ++ (programa c).origen .cortoPlanifica :: r⟩)
    (hdef : ((programa c).efecto k .cortoPlanifica).indefinido = false)
    (h : Ocupa ⟨(programa c).efecto k .cortoPlanifica,
      l ++ ((programa c).destino k .cortoPlanifica ++ r)⟩ fd o) :
    ∃ o₀, Ocupa ⟨k, l ++ (programa c).origen .cortoPlanifica :: r⟩ fd o₀ ∧
      Mueve o₀ (conexionDe ⟨k, l ++ (programa c).origen .cortoPlanifica :: r⟩ fd) o
        (conexionDe ⟨(programa c).efecto k .cortoPlanifica,
          l ++ ((programa c).destino k .cortoPlanifica ++ r)⟩ fd) := by
  have hs := socket_igual (c := c) (k := k) (a := .cortoPlanifica) (by simp) (by simp)
  have hcer := cerrados_efecto (c := c) (k := k) (a := .cortoPlanifica) rfl
  have hent : ((programa c).efecto k .cortoPlanifica).entrantes = k.entrantes := by
    dsimp only [programa, transicion]
    rcases planificar_casos c k with h | h | ⟨pcb, resto, -, -, h⟩ | ⟨pcb, resto, i, d, -, -,
        h⟩ <;> rw [h] <;> rfl
  -- a connection that is not that of the chosen CPU stays as it was
  have hquieta : (∀ cpu, (k.cpus cpu).socketDispatch = some fd →
        (((programa c).efecto k .cortoPlanifica).cpus cpu).pcbEnEjecucion =
          (k.cpus cpu).pcbEnEjecucion) →
      ((programa c).efecto k .cortoPlanifica).enviados (.dispatch fd) =
        k.enviados (.dispatch fd) →
      ∃ o₀, Ocupa ⟨k, l ++ (programa c).origen .cortoPlanifica :: r⟩ fd o₀ ∧
        Mueve o₀ (conexionDe ⟨k, l ++ (programa c).origen .cortoPlanifica :: r⟩ fd) o
          (conexionDe ⟨(programa c).efecto k .cortoPlanifica,
            l ++ ((programa c).destino k .cortoPlanifica ++ r)⟩ fd) := by
    intro hen henv
    refine ⟨o, h.igual hs fun cpu hcpu => enEjecucion_congr fun p => ?_, ?_⟩
    · rw [Ejecuta, Ejecuta, ← List.singleton_append (x := (programa c).origen .cortoPlanifica),
        mem_filterMap_medio, mem_filterMap_medio]
      dsimp only
      rw [hen cpu hcpu]
      rfl
    · have higual : conexionDe ⟨(programa c).efecto k .cortoPlanifica,
          l ++ ((programa c).destino k .cortoPlanifica ++ r)⟩ fd =
            conexionDe ⟨k, l ++ (programa c).origen .cortoPlanifica :: r⟩ fd :=
        conexion_igual rfl rfl henv (by rw [hent]) (by rw [hcer])
      rw [higual]
      exact .queda _ _
  rcases planificar_casos c k with hk | hk | ⟨pcb, resto, -, -, hk⟩ | ⟨pcb, resto, i, cpu, -,
      hlibre, hk⟩
  · exact hquieta (fun _ _ => by rw [show (programa c).efecto k .cortoPlanifica = _ from hk]; rfl)
      (by rw [show (programa c).efecto k .cortoPlanifica = _ from hk]; rfl)
  · exact hquieta (fun _ _ => by rw [show (programa c).efecto k .cortoPlanifica = _ from hk]; rfl)
      (by rw [show (programa c).efecto k .cortoPlanifica = _ from hk]; rfl)
  · exact hquieta (fun _ _ => by rw [show (programa c).efecto k .cortoPlanifica = _ from hk]; rfl)
      (by rw [show (programa c).efecto k .cortoPlanifica = _ from hk]; rfl)
  · have hefecto : (programa c).efecto k .cortoPlanifica = despachado k pcb resto i cpu := hk
    obtain ⟨hmem, hl⟩ := obtener_mem hlibre
    have hnone := (hA.escuchas.lista.libres cpu hmem).2.mp hl
    rw [hefecto] at hdef
    obtain ⟨p, hp⟩ : ∃ p, k.pcbs pcb = some p := by
      dsimp only [despachado] at hdef
      rw [Bool.or_eq_false_iff, Option.isNone_eq_false_iff] at hdef
      exact Option.isSome_iff_exists.mp hdef.2
    by_cases hcpu : (k.cpus cpu).socketDispatch = some fd
    · have hsin : cpu ∉ (l ++ (programa c).origen .cortoPlanifica :: r).filterMap manejaDe := by
        intro hm
        obtain ⟨h, hh, hm⟩ := List.mem_filterMap.mp hm
        obtain ⟨p, hp, -⟩ := (hA.escuchas.hilos h hh).maneja cpu hm
        cases hnone.symm.trans hp
      have hantes : enEjecucion ⟨k, l ++ (programa c).origen .cortoPlanifica :: r⟩ cpu = none := by
        rw [enEjecucion, if_neg hsin, hnone]
      have hdespues : enEjecucion ⟨(programa c).efecto k .cortoPlanifica,
          l ++ ((programa c).destino k .cortoPlanifica ++ r)⟩ cpu = some pcb := by
        rw [enEjecucion_eq_some, Ejecuta, hefecto]
        refine ⟨?_, fun hm => hsin ?_⟩
        · dsimp only [despachado]
          rw [Function.update_self]
        · rw [← List.singleton_append (x := (programa c).origen .cortoPlanifica)]
          rw [mem_filterMap_medio] at hm ⊢
          exact hm
      have ho : o = some pcb := by
        rw [← hdespues]
        cases h with
        | de cpu' h' => rw [hI.conexiones.inyectiva cpu' cpu fd ((hs cpu').symm.trans h') hcpu]
        | nadie h' => exact absurd ((hs cpu).trans hcpu) (h' cpu)
      have hconexion : conexionDe ⟨(programa c).efecto k .cortoPlanifica,
          l ++ ((programa c).destino k .cortoPlanifica ++ r)⟩ fd =
            { conexionDe ⟨k, l ++ (programa c).origen .cortoPlanifica :: r⟩ fd with
              enviados := k.enviados (.dispatch fd) ++
                [.opPcb (p.cambiarEstado k.reloj .running)] } := by
        have henv : ((programa c).efecto k .cortoPlanifica).enviados (.dispatch fd) =
            k.enviados (.dispatch fd) ++ [.opPcb (p.cambiarEstado k.reloj .running)] := by
          rw [hefecto]
          dsimp only [despachado]
          rw [hp, hcpu]
          dsimp only
          rw [Function.update_self]
        rw [← List.singleton_append (x := (programa c).origen .cortoPlanifica), conexion_medio,
          conexion_medio, henv, hent, hcer]
        rfl
      have hpid : (p.cambiarEstado k.reloj .running).pid = pcb :=
        (mudanza_cambiarEstado _ _ p).pid.trans (hI.pids pcb p hp)
      refine ⟨none, hantes ▸ Ocupa.de cpu hcpu, ?_⟩
      rw [hconexion, ho, ← hpid]
      exact .despacha _ _
    · refine hquieta (fun cpu' hcpu' => ?_) ?_
      · rw [hefecto]
        dsimp only [despachado]
        rw [Function.update_of_ne]
        rintro rfl
        exact hcpu hcpu'
      · rw [hefecto]
        dsimp only [despachado]
        rw [hp]
        cases hd : (k.cpus cpu).socketDispatch with
        | none => rfl
        | some fd' =>
          have hne : Canal.dispatch fd ≠ .dispatch fd' := by
            intro heq
            cases heq
            exact hcpu hd
          exact Function.update_of_ne hne _ _

/-- The thread that listens to a CPU takes its response. -/
theorem mueve_respuesta {cpu fd₀ : ℕ} {pid pc : ℤ} {motivo : Motivo}
    (ha : a = .recibeRespuesta cpu fd₀ pid pc motivo)
    (hI : Lineas ⟨k, l ++ (programa c).origen a :: r⟩) (hg : (programa c).guarda k a)
    (hdef : ((programa c).efecto k a).indefinido = false)
    (h : Ocupa ⟨(programa c).efecto k a, l ++ ((programa c).destino k a ++ r)⟩ fd o) :
    ∃ o₀, Ocupa ⟨k, l ++ (programa c).origen a :: r⟩ fd o₀ ∧
      Mueve o₀ (conexionDe ⟨k, l ++ (programa c).origen a :: r⟩ fd) o
        (conexionDe ⟨(programa c).efecto k a, l ++ ((programa c).destino k a ++ r)⟩ fd) := by
  have hs := socket_igual (c := c) (k := k) (a := a) (by simp [ha]) (by simp [ha])
  have hcer := cerrados_efecto (c := c) (k := k) (a := a) (by rw [ha]; rfl)
  have hsal := saluda_destino (c := c) (k := k) (a := a) (by simp [ha]) (by simp [ha])
  have hmod : ∀ fd, ((programa c).destino k a).filter (fun h => moduloDe h = some fd) = [] := by
    intro fd
    refine List.filter_eq_nil_iff.mpr fun h hh => ?_
    rw [modulo_destino (by rw [ha]; rfl) h hh]
    simp
  subst ha
  have hhead : (k.entrantes fd₀).head? = some (.respuestaEjecucion pid pc motivo) :=
    of_decide_eq_true hg.2
  have hsocket : (k.cpus cpu).socketDispatch = some fd₀ :=
    hI.escuchan cpu (some fd₀) (List.mem_append_right _ List.mem_cons_self)
  obtain ⟨hent, henv, hen, d, hd, hmaneja⟩ : ((programa c).efecto k
        (.recibeRespuesta cpu fd₀ pid pc motivo)).entrantes = (recibir k fd₀).entrantes ∧
      ((programa c).efecto k (.recibeRespuesta cpu fd₀ pid pc motivo)).enviados = k.enviados ∧
      (∀ cpu', (((programa c).efecto k (.recibeRespuesta cpu fd₀ pid pc motivo)).cpus
        cpu').pcbEnEjecucion = (k.cpus cpu').pcbEnEjecucion) ∧
      ∃ d, (programa c).destino k (.recibeRespuesta cpu fd₀ pid pc motivo) = [d] ∧
        manejaDe d = some cpu := by
    dsimp only [programa, transicion, recibirRespuesta, trasRespuesta] at hdef ⊢
    cases hpcb : (k.cpus cpu).pcbEnEjecucion with
    | none =>
      rw [hpcb] at hdef
      cases hdef
    | some pcb =>
      rw [hpcb] at hdef
      dsimp only at hdef ⊢
      cases hp : k.pcbs pcb with
      | none =>
        rw [hp] at hdef
        cases hdef
      | some p =>
        dsimp only
        split
        · exact ⟨rfl, rfl, fun _ => rfl, _, rfl, rfl⟩
        · refine ⟨rfl, rfl, fun _ => rfl, _, rfl, ?_⟩
          cases motivo <;> rfl
  have hfiltro : ∀ fd, [(programa c).origen (.recibeRespuesta cpu fd₀ pid pc motivo)].filter
      (fun h => moduloDe h = some fd) = [] := fun _ => rfl
  by_cases hfd : fd = fd₀
  · subst hfd
    have ho : o = none := by
      cases h with
      | de cpu' h' =>
        rw [hI.conexiones.inyectiva cpu' cpu fd ((hs cpu').symm.trans h') hsocket, enEjecucion,
          if_pos]
        dsimp only
        rw [mem_filterMap_medio, hd, List.filterMap_cons_some hmaneja]
        exact Or.inr (Or.inl List.mem_cons_self)
      | nadie h' => rfl
    obtain ⟨resto, hresto⟩ := List.head?_eq_some_iff.mp hhead
    have hconexion : conexionDe ⟨(programa c).efecto k (.recibeRespuesta cpu fd pid pc motivo),
        l ++ ((programa c).destino k (.recibeRespuesta cpu fd pid pc motivo) ++ r)⟩ fd =
          { conexionDe ⟨k, l ++ (programa c).origen (.recibeRespuesta cpu fd pid pc motivo) :: r⟩
            fd with entrantes := resto } := by
      rw [← List.singleton_append (x := (programa c).origen _), conexion_medio, conexion_medio,
        hmod, hfiltro, hsal, henv, hent, hcer, recibir]
      dsimp only
      rw [Function.update_self, hresto, List.tail_cons]
    refine ⟨_, .de cpu hsocket, ?_⟩
    rw [hconexion, ho]
    exact .recibe _ _ pid pc motivo resto hresto
  · have hconexion : conexionDe ⟨(programa c).efecto k (.recibeRespuesta cpu fd₀ pid pc motivo),
        l ++ ((programa c).destino k (.recibeRespuesta cpu fd₀ pid pc motivo) ++ r)⟩ fd =
          conexionDe ⟨k, l ++ (programa c).origen (.recibeRespuesta cpu fd₀ pid pc motivo) :: r⟩
            fd := by
      refine conexion_igual ((hmod fd).trans (hfiltro fd).symm) (by rw [hsal]) (by rw [henv]) ?_
        (by rw [hcer])
      rw [hent, recibir]
      exact Function.update_of_ne hfd _ _
    rw [hconexion]
    refine ⟨o, h.igual hs fun cpu' hcpu' => enEjecucion_congr fun p => ?_, .queda _ _⟩
    have hne : cpu' ≠ cpu := by
      rintro rfl
      exact hfd (Option.some.inj (hcpu'.symm.trans hsocket))
    refine ejecuta_otra (hen cpu') hne (fun x hx => by cases hx) fun x hx => ?_
    rw [hd, List.filterMap_cons_some hmaneja] at hx
    exact List.mem_singleton.mp hx

/-- A thread that finishes with a CPU leaves it without a process, as it was for the others. -/
theorem ocupa_suelta {cpu : ℕ} {k' : Kernel} {d : Hilo}
    (ho : manejaDe ((programa c).origen a) = some cpu) (hd : manejaDe d = none)
    (hmisma : (k'.cpus cpu).pcbEnEjecucion = none)
    (hotra : ∀ cpu', cpu' ≠ cpu → k'.cpus cpu' = k.cpus cpu')
    (hs : ∀ cpu, (k'.cpus cpu).socketDispatch = (k.cpus cpu).socketDispatch)
    (h : Ocupa ⟨k', l ++ ([d] ++ r)⟩ fd o) :
    Ocupa ⟨k, l ++ (programa c).origen a :: r⟩ fd o := by
  have hoe : [(programa c).origen a].filterMap manejaDe = [cpu] := List.filterMap_cons_some ho
  refine h.igual hs fun cpu' _ => enEjecucion_congr fun p => ?_
  by_cases heq : cpu' = cpu
  · subst heq
    refine iff_of_false (fun h => ?_) fun h => h.2 ?_
    · cases hmisma.symm.trans h.1
    · dsimp only
      rw [← List.singleton_append (x := (programa c).origen a), mem_filterMap_medio, hoe]
      exact Or.inr (Or.inl List.mem_cons_self)
  · refine ejecuta_otra (by rw [hotra cpu' heq]) heq ?_ ?_
    · rw [hoe]
      exact fun x hx => List.mem_singleton.mp hx
    · rw [List.filterMap_cons_none hd]
      exact fun x hx => by cases hx

theorem cpus_registra {fd₀ : ℕ} {nombre : List Byte} (hS : buscarCpuPorNombre k nombre = none) :
    ((programa c).efecto k (.cpuRegistra fd₀ nombre)).cpus =
      Function.update k.cpus k.totalCpus ⟨nombre, some fd₀, none, true, none⟩ := by
  dsimp only [programa, transicion]
  rw [registrar_nueva fd₀ hS]

theorem ocupa_registra {fd₀ : ℕ} {nombre : List Byte}
    (hI : Lineas ⟨k, l ++ (programa c).origen (.cpuRegistra fd₀ nombre) :: r⟩)
    (hS : buscarCpuPorNombre k nombre = none)
    (h : Ocupa ⟨(programa c).efecto k (.cpuRegistra fd₀ nombre),
      l ++ ((programa c).destino k (.cpuRegistra fd₀ nombre) ++ r)⟩ fd o) :
    Ocupa ⟨k, l ++ (programa c).origen (.cpuRegistra fd₀ nombre) :: r⟩ fd o := by
  have hcpus : ((programa c).efecto k (.cpuRegistra fd₀ nombre)).cpus =
      Function.update k.cpus k.totalCpus ⟨nombre, some fd₀, none, true, none⟩ := cpus_registra hS
  have hotra : ∀ cpu, cpu ≠ k.totalCpus →
      ((programa c).efecto k (.cpuRegistra fd₀ nombre)).cpus cpu = k.cpus cpu := fun cpu hne => by
    rw [hcpus, Function.update_of_ne hne]
  have hen : ∀ cpu, cpu ≠ k.totalCpus →
      enEjecucion ⟨(programa c).efecto k (.cpuRegistra fd₀ nombre),
        l ++ ((programa c).destino k (.cpuRegistra fd₀ nombre) ++ r)⟩ cpu =
          enEjecucion ⟨k, l ++ (programa c).origen (.cpuRegistra fd₀ nombre) :: r⟩ cpu := by
    intro cpu hne
    exact enEjecucion_congr fun p => ejecuta_otra (by rw [hotra cpu hne]) hne
      (fun x hx => by cases hx) fun x hx => by cases hx
  cases h with
  | de cpu h =>
    by_cases hcpu : cpu = k.totalCpus
    · subst hcpu
      dsimp only at h
      rw [hcpus, Function.update_self] at h
      cases h
      have hno : enEjecucion ⟨(programa c).efecto k (.cpuRegistra fd nombre),
          l ++ ((programa c).destino k (.cpuRegistra fd nombre) ++ r)⟩ k.totalCpus = none := by
        rw [enEjecucion]
        split
        · rfl
        · dsimp only
          rw [hcpus, Function.update_self]
      rw [hno]
      refine .nadie fun cpu hcpu => (hI.conexiones.sockets cpu fd hcpu).2 ?_
      exact List.mem_filterMap.mpr ⟨_, List.mem_append_right _ List.mem_cons_self, rfl⟩
    · rw [hen cpu hcpu]
      exact .de cpu ((congrArg Cpu.socketDispatch (hotra cpu hcpu)).symm.trans h)
  | nadie h =>
    refine .nadie fun cpu hcpu => h cpu ?_
    have hne : cpu ≠ k.totalCpus := (hI.conocidas cpu fd hcpu).ne
    exact (congrArg Cpu.socketDispatch (hotra cpu hne)).trans hcpu

/-- The thread that takes a CPU out leaves its connection without a process. -/
theorem ocupa_revisa {cpu : ℕ} (hI : Lineas ⟨k, l ++ (programa c).origen (.escuchaRevisa cpu) :: r⟩)
    (h : Ocupa ⟨(programa c).efecto k (.escuchaRevisa cpu),
      l ++ ((programa c).destino k (.escuchaRevisa cpu) ++ r)⟩ fd o) :
    Ocupa ⟨k, l ++ (programa c).origen (.escuchaRevisa cpu) :: r⟩ fd o ∨
      o = none ∧ (k.cpus cpu).socketDispatch = some fd := by
  have hs := socket_igual (c := c) (k := k) (a := .escuchaRevisa cpu) (by simp) (by simp)
  cases hen : (k.cpus cpu).pcbEnEjecucion with
  | none =>
    left
    refine h.igual hs fun cpu' _ => enEjecucion_congr fun p => ejecuta_igual ?_ ?_ cpu' p
    · dsimp only [programa, transicion]
      rw [hen]
      exact fun _ => rfl
    · dsimp only [programa, transicion]
      rw [hen]
      rfl
  | some pcb =>
    have hds : ((programa c).destino k (.escuchaRevisa cpu)).filterMap manejaDe = [cpu] := by
      dsimp only [programa, transicion]
      rw [hen]
      rfl
    have hcpus : ((programa c).efecto k (.escuchaRevisa cpu)).cpus = k.cpus := by
      dsimp only [programa, transicion]
      rw [hen]
      rfl
    by_cases hcpu : (k.cpus cpu).socketDispatch = some fd
    · right
      refine ⟨?_, hcpu⟩
      cases h with
      | de cpu' h' =>
        rw [hI.conexiones.inyectiva cpu' cpu fd ((hs cpu').symm.trans h') hcpu, enEjecucion, if_pos]
        dsimp only
        rw [mem_filterMap_medio, hds]
        exact Or.inr (Or.inl List.mem_cons_self)
      | nadie h' => rfl
    · left
      refine h.igual hs fun cpu' hcpu' => enEjecucion_congr fun p => ?_
      have hne : cpu' ≠ cpu := by
        rintro rfl
        exact hcpu hcpu'
      refine ejecuta_otra (by rw [hcpus]) hne (fun x hx => by cases hx) fun x hx => ?_
      rw [hds] at hx
      exact List.mem_singleton.mp hx

theorem ocupa_cierra {cpu : ℕ} (hI : Lineas ⟨k, l ++ (programa c).origen (.escuchaCierra cpu) :: r⟩)
    (h : Ocupa ⟨(programa c).efecto k (.escuchaCierra cpu),
      l ++ ((programa c).destino k (.escuchaCierra cpu) ++ r)⟩ fd o) :
    Ocupa ⟨k, l ++ (programa c).origen (.escuchaCierra cpu) :: r⟩ fd o ∨
      o = none ∧ (k.cpus cpu).socketDispatch = some fd := by
  have hmisma : (((programa c).efecto k (.escuchaCierra cpu)).cpus cpu).socketDispatch = none :=
    (congrArg Cpu.socketDispatch (Function.update_self cpu _ k.cpus) :)
  have hotra : ∀ cpu', cpu' ≠ cpu →
      ((programa c).efecto k (.escuchaCierra cpu)).cpus cpu' = k.cpus cpu' := fun cpu' hne =>
    Function.update_of_ne hne _ _
  have hen : ∀ cpu', enEjecucion ⟨(programa c).efecto k (.escuchaCierra cpu),
      l ++ ((programa c).destino k (.escuchaCierra cpu) ++ r)⟩ cpu' =
        enEjecucion ⟨k, l ++ (programa c).origen (.escuchaCierra cpu) :: r⟩ cpu' := fun cpu' =>
    enEjecucion_congr fun p => ejecuta_igual (cpus_igual rfl).1 (maneja_igual rfl) cpu' p
  cases h with
  | de cpu' h' =>
    have hne : cpu' ≠ cpu := by
      rintro rfl
      cases hmisma.symm.trans h'
    rw [hen]
    exact Or.inl (.de cpu' ((congrArg Cpu.socketDispatch (hotra cpu' hne)).symm.trans h'))
  | nadie h' =>
    by_cases hcpu : (k.cpus cpu).socketDispatch = some fd
    · exact Or.inr ⟨rfl, hcpu⟩
    · refine Or.inl (.nadie fun cpu' hcpu' => h' cpu' ?_)
      have hne : cpu' ≠ cpu := by
        rintro rfl
        exact hcpu hcpu'
      exact (congrArg Cpu.socketDispatch (hotra cpu' hne)).trans hcpu'

/-- The actions that change what a CPU has in execution, or its connection, and none of its
packets. -/
theorem ocupa_aparte (hI : Lineas ⟨k, l ++ (programa c).origen a :: r⟩)
    (hS : NombreNuevo (l.length, a) ⟨k, l ++ (programa c).origen a :: r⟩)
    (ha : asigna a = true ∨ ∃ d, a = .escuchaCierra d) (hlinea : tocaLinea a = false)
    (h : Ocupa ⟨(programa c).efecto k a, l ++ ((programa c).destino k a ++ r)⟩ fd o) :
    Ocupa ⟨k, l ++ (programa c).origen a :: r⟩ fd o ∨ o = none ∧
      ∃ cpu, despideDe ((programa c).origen a) = some cpu ∧
        (k.cpus cpu).socketDispatch = some fd := by
  cases a with
  | cpuRegistra fd₀ nombre => exact Or.inl (ocupa_registra hI (hS fd₀ nombre rfl) h)
  | escuchaLibera cpu =>
    refine Or.inl (ocupa_suelta rfl rfl ?_ (fun cpu' hne => ?_)
      (socket_igual (by simp) (by simp)) h)
    · exact (congrArg Cpu.pcbEnEjecucion (Function.update_self cpu _ k.cpus) :)
    · exact Function.update_of_ne hne _ _
  | escuchaFinalizaTomado cpu pcb =>
    refine Or.inl (ocupa_suelta rfl rfl ?_ (fun cpu' hne => ?_)
      (socket_igual (by simp) (by simp)) h)
    · exact (congrArg Cpu.pcbEnEjecucion (Function.update_self cpu _ k.cpus) :)
    · exact Function.update_of_ne hne _ _
  | escuchaQuita cpu =>
    have hs := socket_igual (c := c) (k := k) (a := .escuchaQuita cpu) (by simp) (by simp)
    have hej : ∀ cpu' p, Ejecuta ⟨(programa c).efecto k (.escuchaQuita cpu),
        l ++ ((programa c).destino k (.escuchaQuita cpu) ++ r)⟩ cpu' p ↔
          Ejecuta ⟨k, l ++ (programa c).origen (.escuchaQuita cpu) :: r⟩ cpu' p :=
      ejecuta_igual (fun _ => rfl) rfl
    exact Or.inl (h.igual hs fun cpu' _ => enEjecucion_congr (hej cpu'))
  | escuchaRevisa cpu => exact (ocupa_revisa hI h).imp_right fun h => ⟨h.1, cpu, rfl, h.2⟩
  | escuchaCierra cpu => exact (ocupa_cierra hI h).imp_right fun h => ⟨h.1, cpu, rfl, h.2⟩
  | cortoPlanifica | recibeRespuesta _ _ _ _ _ | recibeOtro _ _ => cases hlinea
  | _ =>
    rcases ha with ha | ⟨d, ha⟩
    · cases ha
    · cases ha

/-- The actions of the modules. -/
theorem mueve_modulo (hm : (moduloDe ((programa c).origen a)).isSome = true)
    (hg : (programa c).guarda k a)
    (hR : Regular o (conexionDe ⟨k, l ++ (programa c).origen a :: r⟩ fd)) :
    Mueve o (conexionDe ⟨k, l ++ (programa c).origen a :: r⟩ fd) o
      (conexionDe ⟨(programa c).efecto k a, l ++ ((programa c).destino k a ++ r)⟩ fd) := by
  -- a step that sends nothing
  have hmudo : ∀ (fd₀ : ℕ) (d : Hilo), moduloDe ((programa c).origen a) = some fd₀ →
      (∀ fd, ((programa c).destino k a).filter (fun h => moduloDe h = some fd) =
        if fd = fd₀ then [d] else []) →
      ((programa c).destino k a).filterMap saludaDe = [(programa c).origen a].filterMap saludaDe →
      ((programa c).efecto k a).enviados = k.enviados →
      ((programa c).efecto k a).entrantes = k.entrantes →
      ((programa c).efecto k a).cerrados = k.cerrados →
      Avanza (k.enviados (.dispatch fd₀)) ((programa c).origen a) d [] →
      Mueve o (conexionDe ⟨k, l ++ (programa c).origen a :: r⟩ fd) o
        (conexionDe ⟨(programa c).efecto k a, l ++ ((programa c).destino k a ++ r)⟩ fd) := by
    intro fd₀ d ho hds hsal henv hent hcer ha
    refine mueve_avanza hR ho hds hsal henv ?_ hcer ha
    rw [List.append_nil, Function.update_eq_self, hent]
  cases a with
  | moduloSaluda fd₀ nombre =>
    have hhead : (k.enviados (.dispatch fd₀)).head? = some .handshakeOk := of_decide_eq_true hg.2
    exact hmudo fd₀ _ rfl (fun fd => filtro_uno rfl) rfl rfl rfl rfl (.saluda fd₀ _ nombre hhead)
  | moduloSaludaInterrupt fd₀ fdInterrupt =>
    exact hmudo fd₀ _ rfl (fun fd => filtro_uno rfl) rfl rfl rfl rfl (.empieza fd₀ fdInterrupt)
  | moduloLee m =>
    have hlt : m.leidos < (k.enviados (.dispatch m.fdDispatch)).length := by
      have h := hg.2
      simp only [transicion, Bool.and_eq_true, decide_eq_true_eq] at h
      exact h.1
    obtain ⟨hfd, -⟩ := leer_interrupt m (k.enviados (.dispatch m.fdDispatch))
    exact hmudo m.fdDispatch _ rfl (fun fd => filtro_uno (congrArg some hfd)) rfl rfl rfl rfl
      (.lee m hlt)
  | moduloInterrumpe m =>
    have hlee : (m.interrumpir (k.enviados (.interrupt m.fdInterrupt))).fdDispatch =
        m.fdDispatch ∧
        (m.interrumpir (k.enviados (.interrupt m.fdInterrupt))).leidos = m.leidos ∧
        (m.interrumpir (k.enviados (.interrupt m.fdInterrupt))).rafaga = m.rafaga ∧
        (m.interrumpir (k.enviados (.interrupt m.fdInterrupt))).esperaInit = m.esperaInit := by
      rw [ModuloCpu.interrumpir]
      split <;> exact ⟨rfl, rfl, rfl, rfl⟩
    obtain ⟨hfd, hleidos, hrafaga, hespera⟩ := hlee
    exact hmudo m.fdDispatch _ rfl (fun fd => filtro_uno (congrArg some hfd)) rfl rfl rfl rfl
      (.interrumpe m _ hleidos hrafaga hespera)
  | moduloInitProc m path tamanio =>
    have h := hg.2
    simp only [transicion, Bool.and_eq_true, Bool.not_eq_true'] at h
    exact mueve_avanza hR rfl (fun fd => filtro_uno rfl) rfl rfl rfl rfl
      (.pideInit m path tamanio h.1 h.2)
  | moduloTermina m pc motivo =>
    have h := hg.2
    simp only [transicion, Bool.and_eq_true, Bool.not_eq_true'] at h
    exact mueve_avanza hR rfl (fun fd => filtro_uno rfl) rfl rfl rfl rfl
      (.responde m _ pc (motivoFinal m motivo) h.1.1 h.1.2 rfl rfl h.1.2)
  | moduloFallaFetch m pc =>
    have h := hg.2
    simp only [transicion, Bool.and_eq_true, Bool.not_eq_true'] at h
    exact mueve_avanza hR rfl (fun fd => filtro_uno rfl) rfl rfl rfl rfl
      (.responde m _ pc .otro h.1 h.2 rfl rfl h.2)
  | moduloAborta fd₀ nombre | moduloAbortaInterrupt fd₀ fdInterrupt | moduloDesconecta m =>
    exact mueve_cierra hR rfl rfl rfl rfl rfl
  | _ => cases hm

/-- A new connection, with which nobody has to do yet but its module. -/
theorem conexion_abierta {nombre : List Byte}
    (hI : Lineas ⟨k, l ++ (programa c).origen (.conectaCpu nombre) :: r⟩) :
    conexionDe ⟨(programa c).efecto k (.conectaCpu nombre),
      l ++ ((programa c).destino k (.conectaCpu nombre) ++ r)⟩ fd =
        if fd = k.totalConexiones then
          { vacia with modulos := [.moduloSaluda fd nombre], saludan := 1 }
        else conexionDe ⟨k, l ++ (programa c).origen (.conectaCpu nombre) :: r⟩ fd := by
  have hmodulos : ((programa c).destino k (.conectaCpu nombre)).filter
      (fun h => moduloDe h = some fd) =
        if fd = k.totalConexiones then [.moduloSaluda k.totalConexiones nombre] else [] :=
    filtro_uno (d := .moduloSaluda k.totalConexiones nombre) rfl
  have hsaludan : ((programa c).destino k (.conectaCpu nombre)).filterMap saludaDe =
      [k.totalConexiones] := rfl
  split
  · next hfd =>
    subst hfd
    have hnueva := hI.nuevas k.totalConexiones le_rfl
    rw [← List.singleton_append (x := (programa c).origen _), conexion_medio] at hnueva
    obtain ⟨hmod, henv, hent, hcer, hsal⟩ := Conexion.mk.inj hnueva
    obtain ⟨hl, hr⟩ := List.append_eq_nil_iff.mp hmod
    have hcuenta : (l.filterMap saludaDe).count k.totalConexiones = 0 ∧
        (r.filterMap saludaDe).count k.totalConexiones = 0 := by
      omega
    rw [conexion_medio, hl, (List.append_eq_nil_iff.mp hr).2, hmodulos, if_pos rfl, hsaludan,
      hcuenta.1, hcuenta.2, List.count_singleton_self]
    exact Conexion.mk.injEq .. ▸ ⟨rfl, henv, hent, hcer, rfl⟩
  · next hfd =>
    refine conexion_igual (hmodulos.trans (if_neg hfd)) ?_ rfl rfl rfl
    rw [hsaludan, List.count_eq_zero_of_not_mem fun hmem => hfd (List.mem_singleton.mp hmem)]
    rfl

/-- The answer to the handshake of a connection. -/
theorem mueve_saluda {cpu fd₀ : ℕ} :
    Mueve o (conexionDe ⟨k, l ++ (programa c).origen (.cpuResponde fd₀ cpu) :: r⟩ fd) o
      (conexionDe ⟨(programa c).efecto k (.cpuResponde fd₀ cpu),
        l ++ ((programa c).destino k (.cpuResponde fd₀ cpu) ++ r)⟩ fd) := by
  have hfiltro : ((programa c).destino k (.cpuResponde fd₀ cpu)).filter
      (fun h => moduloDe h = some fd) =
        [(programa c).origen (.cpuResponde fd₀ cpu)].filter fun h => moduloDe h = some fd := rfl
  by_cases hfd : fd = fd₀
  · subst hfd
    have hconexion : conexionDe ⟨(programa c).efecto k (.cpuResponde fd cpu),
        l ++ ((programa c).destino k (.cpuResponde fd cpu) ++ r)⟩ fd =
          { conexionDe ⟨k, l ++ (programa c).origen (.cpuResponde fd cpu) :: r⟩ fd with
            enviados := k.enviados (.dispatch fd) ++ [.handshakeOk]
            saludan := (l.filterMap saludaDe).count fd + (r.filterMap saludaDe).count fd } := by
      rw [← List.singleton_append (x := (programa c).origen _), conexion_medio, conexion_medio,
        hfiltro]
      refine Conexion.mk.injEq .. ▸ ⟨rfl, ?_, rfl, rfl, ?_⟩
      · exact Function.update_self _ _ _
      · exact congrArg _ (Nat.zero_add _)
    rw [hconexion]
    refine .saluda _ _ _ ?_
    rw [← List.singleton_append (x := (programa c).origen _), conexion_medio]
    have huno : ([(programa c).origen (.cpuResponde fd cpu)].filterMap saludaDe).count fd = 1 :=
      List.count_singleton_self
    dsimp only
    rw [huno]
    omega
  · have higual : conexionDe ⟨(programa c).efecto k (.cpuResponde fd₀ cpu),
        l ++ ((programa c).destino k (.cpuResponde fd₀ cpu) ++ r)⟩ fd =
          conexionDe ⟨k, l ++ (programa c).origen (.cpuResponde fd₀ cpu) :: r⟩ fd := by
      refine conexion_igual hfiltro ?_ ?_ rfl rfl
      · refine (List.count_eq_zero_of_not_mem fun hmem => ?_).symm
        exact hfd (List.mem_singleton.mp hmem)
      · exact Function.update_of_ne (by simp [hfd]) _ _
    rw [higual]
    exact .queda _ _

/-- The answer to `INIT_PROC`. -/
theorem mueve_acusa {cpu fd₀ : ℕ} {path : List Byte} {tamanio : ℤ}
    {absoluto : Option (List Byte)} (ha : a = .recibeInitProc cpu fd₀ path tamanio absoluto)
    (hI : Lineas ⟨k, l ++ (programa c).origen a :: r⟩) (hg : (programa c).guarda k a) :
    Mueve o (conexionDe ⟨k, l ++ (programa c).origen a :: r⟩ fd) o
      (conexionDe ⟨(programa c).efecto k a, l ++ ((programa c).destino k a ++ r)⟩ fd) := by
  have hcer := cerrados_efecto (c := c) (k := k) (a := a) (by rw [ha]; rfl)
  subst ha
  obtain ⟨hcrear, hcpus⟩ := enviados_crearPcb c (recibir k fd₀) path tamanio absoluto
  have hvista := vistaCpus_crearPcb c (recibir k fd₀) path tamanio absoluto
  have hsocket : (k.cpus cpu).socketDispatch = some fd₀ :=
    hI.escuchan cpu (some fd₀) (List.mem_append_right _ List.mem_cons_self)
  have hhead : (k.entrantes fd₀).head? = some (.initProc path tamanio) := by
    have h := hg.2
    simp only [transicion, Bool.and_eq_true, decide_eq_true_eq] at h
    exact h.2
  have hefecto : (programa c).efecto k (.recibeInitProc cpu fd₀ path tamanio absoluto) =
      (crearPcb c (recibir k fd₀) path tamanio absoluto).enviar (.dispatch fd₀)
        .initProcesoOk := by
    dsimp only [programa, transicion]
    rw [hcpus, show (recibir k fd₀).cpus = k.cpus from rfl, hsocket]
  have hent : ((programa c).efecto k (.recibeInitProc cpu fd₀ path tamanio absoluto)).entrantes =
      (recibir k fd₀).entrantes := by
    rw [hefecto]
    exact congrArg VistaCpus.entrantes hvista
  have henv : ((programa c).efecto k (.recibeInitProc cpu fd₀ path tamanio absoluto)).enviados =
      Function.update k.enviados (.dispatch fd₀) (k.enviados (.dispatch fd₀) ++
        [.initProcesoOk]) := by
    rw [hefecto, Kernel.enviar, hcrear]
    rfl
  have hfiltro : ((programa c).destino k (.recibeInitProc cpu fd₀ path tamanio absoluto)).filter
      (fun h => moduloDe h = some fd) =
        [(programa c).origen (.recibeInitProc cpu fd₀ path tamanio absoluto)].filter
          fun h => moduloDe h = some fd := rfl
  by_cases hfd : fd = fd₀
  · subst hfd
    obtain ⟨resto, hresto⟩ := List.head?_eq_some_iff.mp hhead
    have hconexion : conexionDe
        ⟨(programa c).efecto k (.recibeInitProc cpu fd path tamanio absoluto),
          l ++ ((programa c).destino k (.recibeInitProc cpu fd path tamanio absoluto) ++ r)⟩ fd =
        { conexionDe ⟨k, l ++ (programa c).origen
            (.recibeInitProc cpu fd path tamanio absoluto) :: r⟩ fd with
          enviados := k.enviados (.dispatch fd) ++ [.initProcesoOk], entrantes := resto } := by
      rw [← List.singleton_append (x := (programa c).origen _), conexion_medio, conexion_medio,
        hfiltro, henv, hent, hcer, recibir, Function.update_self]
      dsimp only
      rw [Function.update_self, hresto, List.tail_cons]
      rfl
    rw [hconexion]
    exact .acusa _ _ path tamanio resto hresto
  · have higual : conexionDe
        ⟨(programa c).efecto k (.recibeInitProc cpu fd₀ path tamanio absoluto),
          l ++ ((programa c).destino k (.recibeInitProc cpu fd₀ path tamanio absoluto) ++ r)⟩ fd =
        conexionDe ⟨k, l ++ (programa c).origen
          (.recibeInitProc cpu fd₀ path tamanio absoluto) :: r⟩ fd := by
      refine conexion_igual hfiltro rfl ?_ ?_ (by rw [hcer])
      · rw [henv]
        exact Function.update_of_ne (by simp [hfd]) _ _
      · rw [hent, recibir]
        exact Function.update_of_ne hfd _ _
    rw [higual]
    exact .queda _ _

/-- Each step is a step of the protocol of each connection, but those that open. -/
theorem mueve_paso (hA : Asignados ⟨k, l ++ (programa c).origen a :: r⟩)
    (hI : Lineas ⟨k, l ++ (programa c).origen a :: r⟩) (hg : (programa c).guarda k a)
    (hS : NombreNuevo (l.length, a) ⟨k, l ++ (programa c).origen a :: r⟩)
    (hdef : ((programa c).efecto k a).indefinido = false)
    (ha : ∀ nombre, a ≠ .conectaCpu nombre)
    (h : Ocupa ⟨(programa c).efecto k a, l ++ ((programa c).destino k a ++ r)⟩ fd o) :
    ∃ o₀, Ocupa ⟨k, l ++ (programa c).origen a :: r⟩ fd o₀ ∧
      Mueve o₀ (conexionDe ⟨k, l ++ (programa c).origen a :: r⟩ fd) o
        (conexionDe ⟨(programa c).efecto k a, l ++ ((programa c).destino k a ++ r)⟩ fd) := by
  cases hlinea : tocaLinea a with
  | false =>
    rw [conexion_quieta hlinea]
    have hocupa : Ocupa ⟨k, l ++ (programa c).origen a :: r⟩ fd o ∨ o = none ∧
        ∃ cpu, despideDe ((programa c).origen a) = some cpu ∧
          (k.cpus cpu).socketDispatch = some fd := by
      by_cases hap : asigna a = true ∨ ∃ d, a = .escuchaCierra d
      · exact ocupa_aparte hI hS hap hlinea h
      · rw [not_or, not_exists, Bool.not_eq_true] at hap
        exact Or.inl (ocupa_otra hap.1 hap.2 h)
    rcases hocupa with hocupa | ⟨rfl, cpu, hdespide, hcpu⟩
    · exact ⟨o, hocupa, .queda _ _⟩
    · have hmem : cpu ∈ (l ++ (programa c).origen a :: r).filterMap despideDe :=
        List.mem_filterMap.mpr ⟨_, List.mem_append_right _ List.mem_cons_self, hdespide⟩
      obtain ⟨hc, he⟩ := hI.despedidas cpu hmem fd hcpu
      exact ⟨_, .de cpu hcpu, .despide _ _ hc he⟩
  | true =>
    have hotra : asigna a = false → (∀ d, a ≠ .escuchaCierra d) →
        Ocupa ⟨k, l ++ (programa c).origen a :: r⟩ fd o := fun ha hc => ocupa_otra ha hc h
    cases a with
    | conectaCpu nombre => exact absurd rfl (ha nombre)
    | cortoPlanifica => exact mueve_planifica hA hI hdef h
    | recibeRespuesta cpu fd₀ pid pc motivo => exact mueve_respuesta rfl hI hg hdef h
    | recibeOtro cpu fd₀ =>
      have hhead := of_decide_eq_true hg.2
      exact absurd (List.mem_of_mem_head? hhead) (hA.escuchas.sinOtro fd₀)
    | cpuResponde fd₀ cpu => exact ⟨o, hotra rfl (by simp), mueve_saluda⟩
    | recibeInitProc cpu fd₀ path tamanio absoluto =>
      exact ⟨o, hotra rfl (by simp), mueve_acusa rfl hI hg⟩
    | moduloSaluda _ _ | moduloSaludaInterrupt _ _ | moduloAborta _ _
    | moduloAbortaInterrupt _ _ | moduloLee _ | moduloInterrumpe _ | moduloInitProc _ _ _
    | moduloTermina _ _ _ | moduloFallaFetch _ _ | moduloDesconecta _ =>
      have hocupa := hotra rfl (by simp)
      exact ⟨o, hocupa, mueve_modulo rfl hg (hI.regulares fd o hocupa)⟩
    | _ => cases hlinea

theorem despide_escucha {h : Hilo} {cpu : ℕ} (hd : despideDe h = some cpu) :
    escuchaDe h = some cpu := by
  cases h <;> first | exact hd | cases hd

/-- What a CPU had for its dispatch connection, if it has one. -/
theorem socket_previo {cpu : ℕ}
    (hS : NombreNuevo (l.length, a) ⟨k, l ++ (programa c).origen a :: r⟩)
    (hcpu : cpu < k.totalCpus)
    (h : (((programa c).efecto k a).cpus cpu).socketDispatch = some fd) :
    (k.cpus cpu).socketDispatch = some fd := by
  by_cases ha : ∃ fd nombre, a = .cpuRegistra fd nombre
  · obtain ⟨fd₀, nombre, rfl⟩ := ha
    rwa [cpus_registra (hS fd₀ nombre rfl), Function.update_of_ne hcpu.ne] at h
  · rcases (sockets_efecto c k a).dispatch cpu fd h with h | hreg
    · exact h
    · cases a <;> simp [registra] at hreg
      exact absurd ⟨_, _, rfl⟩ ha

theorem conocidas_paso (hI : Lineas ⟨k, l ++ (programa c).origen a :: r⟩)
    (hS : NombreNuevo (l.length, a) ⟨k, l ++ (programa c).origen a :: r⟩) {cpu : ℕ}
    (h : (((programa c).efecto k a).cpus cpu).socketDispatch = some fd) :
    cpu < ((programa c).efecto k a).totalCpus := by
  by_cases ha : ∃ fd nombre, a = .cpuRegistra fd nombre
  · obtain ⟨fd₀, nombre, rfl⟩ := ha
    have htotal : ((programa c).efecto k (.cpuRegistra fd₀ nombre)).totalCpus =
        k.totalCpus + 1 := by
      dsimp only [programa, transicion]
      exact congrArg Kernel.totalCpus (registrar_nueva fd₀ (hS fd₀ nombre rfl))
    rw [htotal]
    by_cases hcpu : cpu = k.totalCpus
    · rw [hcpu]
      exact Nat.lt_succ_self _
    · rw [cpus_registra (hS fd₀ nombre rfl), Function.update_of_ne hcpu] at h
      exact (hI.conocidas cpu fd h).trans (Nat.lt_succ_self _)
  · rcases (sockets_efecto c k a).dispatch cpu fd h with h | hreg
    · exact (hI.conocidas cpu fd h).trans_le total_efecto
    · cases a <;> simp [registra] at hreg
      exact absurd ⟨_, _, rfl⟩ ha

theorem escuchan_paso (hA : Asignados ⟨k, l ++ (programa c).origen a :: r⟩)
    (hI : Lineas ⟨k, l ++ (programa c).origen a :: r⟩)
    (hS : NombreNuevo (l.length, a) ⟨k, l ++ (programa c).origen a :: r⟩) {cpu : ℕ} {x : Option ℕ}
    (h : .escuchaRecibe cpu x ∈ l ++ ((programa c).destino k a ++ r)) :
    (((programa c).efecto k a).cpus cpu).socketDispatch = x := by
  have hantes : .escuchaRecibe cpu x ∈ (programa c).destino k a ∨
      .escuchaRecibe cpu x ∈ l ++ r := by
    simp only [List.mem_append] at h ⊢
    tauto
  rcases hantes with hmem | hmem
  · obtain ⟨hx, ho⟩ := recibe_destino hmem
    rw [hx]
    refine socket_igual ?_ ?_ cpu
    · rintro fd nombre rfl
      cases ho
    · rintro d rfl
      cases hmem
  · have hmem' : .escuchaRecibe cpu x ∈ l ++ (programa c).origen a :: r := by
      simp only [List.mem_append, List.mem_cons] at hmem ⊢
      tauto
    have hviejo := hI.escuchan cpu x hmem'
    by_cases ha : ∃ fd nombre, a = .cpuRegistra fd nombre
    · obtain ⟨fd₀, nombre, rfl⟩ := ha
      have hcpu : cpu < k.totalCpus := (hA.escuchas.hilos _ hmem').conocida cpu rfl
      rwa [cpus_registra (hS fd₀ nombre rfl), Function.update_of_ne hcpu.ne]
    · rw [not_exists] at ha
      by_cases hc : a = .escuchaCierra cpu
      · subst hc
        refine absurd ?_ (hA.escuchas.unico.solo (x := cpu) rfl)
        exact List.mem_filterMap.mpr ⟨_, hmem, rfl⟩
      · by_cases hd : ∃ d, a = .escuchaCierra d
        · obtain ⟨d, rfl⟩ := hd
          have hne : cpu ≠ d := fun heq => hc (heq ▸ rfl)
          exact (congrArg Cpu.socketDispatch (Function.update_of_ne hne _ _)).trans hviejo
        · rw [not_exists] at hd
          exact (socket_igual (fun fd nombre heq => ha fd ⟨nombre, heq⟩) hd cpu).trans hviejo

theorem despedidas_paso (hA : Asignados ⟨k, l ++ (programa c).origen a :: r⟩)
    (hI : Lineas ⟨k, l ++ (programa c).origen a :: r⟩) (hg : (programa c).guarda k a)
    (hS : NombreNuevo (l.length, a) ⟨k, l ++ (programa c).origen a :: r⟩)
    (hdef : ((programa c).efecto k a).indefinido = false) {cpu : ℕ}
    (h : cpu ∈ (l ++ ((programa c).destino k a ++ r)).filterMap despideDe)
    (hs : (((programa c).efecto k a).cpus cpu).socketDispatch = some fd) :
    ((programa c).efecto k a).cerrados fd = true ∧ ((programa c).efecto k a).entrantes fd = [] := by
  by_cases hnull : ∃ x, a = .recibeNull cpu x
  · obtain ⟨x, rfl⟩ := hnull
    have hx : (k.cpus cpu).socketDispatch = x :=
      hI.escuchan cpu x (List.mem_append_right _ List.mem_cons_self)
    have hsocket : (k.cpus cpu).socketDispatch = some fd := hs
    cases hx.symm.trans hsocket
    have hguarda := hg.2
    simp only [transicion, Bool.and_eq_true, List.isEmpty_iff] at hguarda
    exact ⟨hguarda.2, hguarda.1⟩
  · have hantes : cpu ∈ (l ++ (programa c).origen a :: r).filterMap despideDe := by
      rw [← List.singleton_append (x := (programa c).origen a)]
      rw [mem_filterMap_medio] at h ⊢
      rcases h with h | h | h
      · exact Or.inl h
      · have ho := (despide_destino h).resolve_left hnull
        rw [List.filterMap_cons_some ho]
        exact Or.inr (Or.inl List.mem_cons_self)
      · exact Or.inr (Or.inr h)
    obtain ⟨d, hd, hdespide⟩ := List.mem_filterMap.mp hantes
    have hcpu := (hA.escuchas.hilos d hd).conocida cpu (despide_escucha hdespide)
    have hviejo := socket_previo hS hcpu hs
    obtain ⟨hc, he⟩ := hI.despedidas cpu hantes fd hviejo
    by_cases ha : ∃ nombre, a = .conectaCpu nombre
    · obtain ⟨nombre, rfl⟩ := ha
      exact ⟨hc, he⟩
    · rw [not_exists] at ha
      obtain ⟨o₀, hocupa, hmueve⟩ := mueve_paso hA hI hg hS hdef ha (.de cpu hs)
      exact hmueve.cerrada (hI.regulares fd o₀ hocupa) hc he

theorem nuevas_paso (hA : Asignados ⟨k, l ++ (programa c).origen a :: r⟩)
    (hI : Lineas ⟨k, l ++ (programa c).origen a :: r⟩) (hg : (programa c).guarda k a)
    (hS : NombreNuevo (l.length, a) ⟨k, l ++ (programa c).origen a :: r⟩)
    (hdef : ((programa c).efecto k a).indefinido = false)
    (h : ((programa c).efecto k a).totalConexiones ≤ fd) :
    conexionDe ⟨(programa c).efecto k a, l ++ ((programa c).destino k a ++ r)⟩ fd = vacia := by
  have hvacia := hI.nuevas fd ((conexiones_efecto c k).trans h)
  by_cases ha : ∃ nombre, a = .conectaCpu nombre
  · obtain ⟨nombre, rfl⟩ := ha
    have hne : fd ≠ k.totalConexiones := Nat.ne_of_gt h
    rw [conexion_abierta hI, if_neg hne, hvacia]
  · rw [not_exists] at ha
    have hocupa : Ocupa ⟨(programa c).efecto k a, l ++ ((programa c).destino k a ++ r)⟩ fd none :=
      .nadie fun cpu hcpu => absurd ((conexiones_paso hI.conexiones).sockets cpu fd hcpu).1 h.not_gt
    obtain ⟨o₀, -, hmueve⟩ := mueve_paso hA hI hg hS hdef ha hocupa
    rw [hvacia] at hmueve
    exact hmueve.de_vacia

theorem regulares_paso (hA : Asignados ⟨k, l ++ (programa c).origen a :: r⟩)
    (hI : Lineas ⟨k, l ++ (programa c).origen a :: r⟩) (hg : (programa c).guarda k a)
    (hS : NombreNuevo (l.length, a) ⟨k, l ++ (programa c).origen a :: r⟩)
    (hdef : ((programa c).efecto k a).indefinido = false)
    (h : Ocupa ⟨(programa c).efecto k a, l ++ ((programa c).destino k a ++ r)⟩ fd o) :
    Regular o (conexionDe ⟨(programa c).efecto k a, l ++ ((programa c).destino k a ++ r)⟩ fd) := by
  by_cases ha : ∃ nombre, a = .conectaCpu nombre
  · obtain ⟨nombre, rfl⟩ := ha
    have hocupa := ocupa_otra rfl (by simp) h
    rw [conexion_abierta hI]
    split
    · next hfd =>
      have ho : o = none := by
        cases hocupa with
        | de cpu hcpu => exact absurd (hI.conexiones.sockets cpu fd hcpu).1 hfd.ge.not_gt
        | nadie => rfl
      rw [ho]
      exact regular_abierta fd nombre
    · exact hI.regulares fd o hocupa
  · rw [not_exists] at ha
    obtain ⟨o₀, hocupa, hmueve⟩ := mueve_paso hA hI hg hS hdef ha h
    exact (hI.regulares fd o₀ hocupa).mueve hmueve

end Pasos

/-- The name under which a CPU connects. -/
def nombreDe : Accion → Option (List Byte)
  | .cpuRegistra _ nombre => some nombre
  | _ => none

section Corridas

variable {c : ConfigKernel} {s s₁ s₂ : Sistema Kernel Hilo} {e : ℕ × Accion}
  {es : List (ℕ × Accion)}

theorem lineas_paso (hA : Asignados s₁) (hI : Lineas s₁) (hS : NombreNuevo e s₁)
    (hp : paso (programa c) e s₁ = some s₂) (hdef : s₂.comun.indefinido = false) : Lineas s₂ := by
  have hpids := pids_paso hI.pids hp
  obtain ⟨l, r, hhilos, hl, hg, rfl⟩ := paso_casos hp
  obtain ⟨k, hilos⟩ := s₁
  obtain ⟨n, a⟩ := e
  dsimp only at hhilos hl
  subst hhilos hl
  exact ⟨conexiones_paso hI.conexiones, hpids, fun cpu fd => conocidas_paso hI hS,
    fun cpu x => escuchan_paso hA hI hS, fun fd => nuevas_paso hA hI hg hS hdef,
    fun cpu hcpu fd => despedidas_paso hA hI hg hS hdef hcpu,
    fun fd o => regulares_paso hA hI hg hS hdef⟩

theorem lineas_inicial (c : ConfigKernel) (path : List Byte) (tamanio : ℤ)
    (absoluto : Option (List Byte)) : Lineas (arranque c path tamanio absoluto) := by
  have hvista := vistaCpus_crearPcb c inicial path tamanio absoluto
  have hsin : ∀ cpu, ((arranque c path tamanio absoluto).comun.cpus cpu).socketDispatch = none :=
    congrFun (congrArg VistaCpus.socket hvista)
  have hvacia : ∀ fd, conexionDe (arranque c path tamanio absoluto) fd = vacia := by
    intro fd
    have hcer : (arranque c path tamanio absoluto).comun.cerrados fd = false := by
      rw [arranque, crearPcb]
      split <;> rfl
    exact Conexion.mk.injEq .. ▸ ⟨rfl, congrFun (congrArg VistaCpus.enviados hvista) fd,
      congrFun (congrArg VistaCpus.entrantes hvista) fd, hcer, rfl⟩
  refine ⟨conexiones_inicial c path tamanio absoluto,
    (rafagas_inicial c path tamanio absoluto).pids, ?_, ?_, fun fd _ => hvacia fd, ?_, ?_⟩
  · intro cpu fd h
    cases (hsin cpu).symm.trans h
  · intro cpu x h
    simp [arranque] at h
  · intro cpu h
    cases h
  · intro fd o h
    rw [hvacia]
    cases h with
    | de cpu h => cases (hsin cpu).symm.trans h
    | nadie => exact regular_vacia

variable {path : List Byte} {tamanio : ℤ} {absoluto : Option (List Byte)}

theorem lineas_corrida
    (hC : Cumple (paso (programa c)) NombreNuevo es (arranque c path tamanio absoluto))
    (hrun : correr (paso (programa c)) es (arranque c path tamanio absoluto) = some s)
    (hdef : s.comun.indefinido = false) : Asignados s ∧ Lineas s := by
  have hI : Asignados s ∧ (s.comun.indefinido = false → Lineas s) := by
    refine invariante_corrida (I := fun s => Asignados s ∧ (s.comun.indefinido = false → Lineas s))
      ?_ ⟨asignados_inicial c path tamanio absoluto, fun _ =>
        lineas_inicial c path tamanio absoluto⟩
      hC hrun
    rintro s₁ ⟨n, a⟩ s₂ ⟨hA, hI⟩ hS hp
    have hdef₁ := (paso_guarda hp).1
    refine ⟨?_, lineas_paso hA (hI hdef₁) hS hp⟩
    obtain ⟨l, r, hhilos, hl, hg, rfl⟩ := paso_casos hp
    obtain ⟨k, hilos⟩ := s₁
    dsimp only at hhilos hl
    subst hhilos hl
    exact asignados_paso hA hg hS
  exact ⟨hI.1, hI.2 hdef⟩

/-- In every run, a CPU module and the kernel are in the same phase of one burst at most: the one
of the process that the kernel has in execution in that CPU. -/
theorem una_rafaga_por_cpu
    (hC : Cumple (paso (programa c)) NombreNuevo es (arranque c path tamanio absoluto))
    (hrun : correr (paso (programa c)) es (arranque c path tamanio absoluto) = some s)
    (hdef : s.comun.indefinido = false) {cpu fd : ℕ}
    (hcpu : (s.comun.cpus cpu).socketDispatch = some fd) :
    (conexionDe s fd).modulos.length ≤ 1 ∧
      (∀ h ∈ (conexionDe s fd).modulos, Fase (enEjecucion s cpu) ((conexionDe s fd).linea h)) ∧
      ((conexionDe s fd).modulos = [] → Resto (enEjecucion s cpu) (s.comun.entrantes fd)) := by
  obtain ⟨-, hI⟩ := lineas_corrida hC hrun hdef
  have h := hI.regulares fd _ (.de cpu hcpu)
  exact ⟨h.una, h.fase, h.resto⟩

instance (e : ℕ × Accion) (s : Sistema Kernel Hilo) : Decidable (NombreNuevo e s) :=
  decidable_of_iff (∀ x ∈ nombreDe e.2, buscarCpuPorNombre s.comun x = none) (by
    constructor
    · intro h fd nombre he
      exact h nombre (by rw [he]; rfl)
    · intro h x hx
      obtain ⟨n, a⟩ := e
      cases a with
      | cpuRegistra fd nombre =>
        cases hx
        exact h fd x rfl
      | _ => cases hx)

/-- The module has the burst, and the kernel waits for it. -/
theorem una_rafaga_por_cpu_ejemplo : ∃ s, tras configuracion hastaEjecutar = some s ∧
    enEjecucion s 0 = some 0 ∧ (conexionDe s 0).modulos.length ≤ 1 ∧
      (∀ h ∈ (conexionDe s 0).modulos, Fase (enEjecucion s 0) ((conexionDe s 0).linea h)) ∧
      ((conexionDe s 0).modulos = [] → Resto (enEjecucion s 0) (s.comun.entrantes 0)) := by
  have hobs : (tras configuracion hastaEjecutar).map (fun s =>
      ((s.comun.cpus 0).socketDispatch, enEjecucion s 0, s.comun.indefinido)) =
        some (some 0, some 0, false) := by decide +kernel
  have hC : Cumple (paso (programa configuracion)) NombreNuevo
      (agenda (programa configuracion) hastaEjecutar (arranque configuracion [65] 10 none))
      (arranque configuracion [65] 10 none) := by decide +kernel
  obtain ⟨s, hs, h⟩ := Option.map_eq_some_iff.mp hobs
  simp only [Prod.mk.injEq] at h
  exact ⟨s, hs, h.2.1, una_rafaga_por_cpu hC hs h.2.2 h.1⟩

/-- In every run, each response that a CPU sends is to the burst that the kernel has in execution
there, and the only packet on its connection. -/
theorem respuesta_esperada
    (hC : Cumple (paso (programa c)) NombreNuevo es (arranque c path tamanio absoluto))
    (hrun : correr (paso (programa c)) es (arranque c path tamanio absoluto) = some s)
    (hdef : s.comun.indefinido = false) {cpu fd : ℕ} {pid pc : ℤ} {motivo : Motivo}
    (hmem : .escuchaRecibe cpu (some fd) ∈ s.hilos)
    (hhead : (s.comun.entrantes fd).head? = some (.respuestaEjecucion pid pc motivo)) :
    (s.comun.cpus cpu).pcbEnEjecucion = some pid ∧ pid ∈ s.comun.colas .running ∧
      s.comun.entrantes fd = [.respuestaEjecucion pid pc motivo] := by
  obtain ⟨hA, hI⟩ := lineas_corrida hC hrun hdef
  obtain ⟨resto, hresto⟩ := List.head?_eq_some_iff.mp hhead
  have hcpu := hI.escuchan cpu (some fd) hmem
  have h := hI.regulares fd _ (.de cpu hcpu)
  obtain ⟨rfl, hpid⟩ := h.respuesta hresto
  have hejecuta := enEjecucion_eq_some.mp hpid
  exact ⟨hejecuta.1, hA.ejecucion.enCola cpu pid hejecuta, hresto⟩

def hastaResponder : List Accion :=
  hastaEjecutar ++ [.moduloTermina ⟨0, 1, 2, 1, some (1, 0), false, []⟩ 1 .exit]

theorem respuesta_esperada_ejemplo : ∃ s, tras configuracion hastaResponder = some s ∧
    (s.comun.cpus 0).pcbEnEjecucion = some 0 ∧ 0 ∈ s.comun.colas .running ∧
      s.comun.entrantes 0 = [.respuestaEjecucion 0 1 .exit] := by
  have hobs : (tras configuracion hastaResponder).map (fun s =>
      (decide (.escuchaRecibe 0 (some 0) ∈ s.hilos), (s.comun.entrantes 0).head?,
        s.comun.indefinido)) = some (true, some (.respuestaEjecucion 0 1 .exit), false) := by
    decide +kernel
  have hC : Cumple (paso (programa configuracion)) NombreNuevo
      (agenda (programa configuracion) hastaResponder (arranque configuracion [65] 10 none))
      (arranque configuracion [65] 10 none) := by decide +kernel
  obtain ⟨s, hs, h⟩ := Option.map_eq_some_iff.mp hobs
  simp only [Prod.mk.injEq, decide_eq_true_eq] at h
  exact ⟨s, hs, respuesta_esperada hC hs h.2.2 h.1 h.2.1⟩

/-- The process of a burst on its way to a module, in it or on its way back is in execution in the
CPU of its connection. -/
theorem ejecuta_de_procesos (hI : Lineas s) {h : Hilo} {fd : ℕ} {pid : ℤ} (hh : h ∈ s.hilos)
    (hfd : moduloDe h = some fd) (hpid : pid ∈ ((conexionDe s fd).linea h).procesos) :
    ∃ cpu, (s.comun.cpus cpu).socketDispatch = some fd ∧ Ejecuta s cpu pid := by
  have hmem : h ∈ (conexionDe s fd).modulos := List.mem_filter.mpr ⟨hh, decide_eq_true hfd⟩
  by_cases hcpu : ∃ cpu, (s.comun.cpus cpu).socketDispatch = some fd
  · obtain ⟨cpu, hcpu⟩ := hcpu
    rw [((hI.regulares fd _ (.de cpu hcpu)).fase h hmem).procesos, Option.mem_toList] at hpid
    exact ⟨cpu, hcpu, enEjecucion_eq_some.mp hpid⟩
  · rw [not_exists] at hcpu
    rw [((hI.regulares fd _ (.nadie hcpu)).fase h hmem).procesos] at hpid
    cases hpid

/-- Each connection has one thread of its module at most. -/
theorem modulo_unico (hI : Lineas s) {h h' : Hilo} {fd : ℕ} (hh : h ∈ s.hilos) (hh' : h' ∈ s.hilos)
    (hfd : moduloDe h = some fd) (hfd' : moduloDe h' = some fd) : h = h' := by
  have hmem : h ∈ (conexionDe s fd).modulos := List.mem_filter.mpr ⟨hh, decide_eq_true hfd⟩
  have hmem' : h' ∈ (conexionDe s fd).modulos := List.mem_filter.mpr ⟨hh', decide_eq_true hfd'⟩
  obtain ⟨o, ho⟩ := ocupa_alguno s fd
  obtain ⟨d, hd⟩ := List.length_eq_one_iff.mp
    (Nat.le_antisymm (hI.regulares fd o ho).una (List.length_pos_of_mem hmem))
  rw [hd, List.mem_singleton] at hmem hmem'
  exact hmem.trans hmem'.symm

/-- In every run, a process whose burst is on its way to a CPU, in it or on its way back is in
`cola_exec`, and its burst is nowhere else. -/
theorem un_proceso_una_cpu
    (hC : Cumple (paso (programa c)) NombreNuevo es (arranque c path tamanio absoluto))
    (hrun : correr (paso (programa c)) es (arranque c path tamanio absoluto) = some s)
    (hdef : s.comun.indefinido = false) {h h' : Hilo} (hh : h ∈ s.hilos) (hh' : h' ∈ s.hilos)
    {fd fd' : ℕ} (hfd : moduloDe h = some fd) (hfd' : moduloDe h' = some fd') {pid : ℤ}
    (hpid : pid ∈ ((conexionDe s fd).linea h).procesos)
    (hpid' : pid ∈ ((conexionDe s fd').linea h').procesos) :
    h = h' ∧ pid ∈ s.comun.colas .running := by
  obtain ⟨hA, hI⟩ := lineas_corrida hC hrun hdef
  obtain ⟨cpu, hs, hejecuta⟩ := ejecuta_de_procesos hI hh hfd hpid
  obtain ⟨cpu', hs', hejecuta'⟩ := ejecuta_de_procesos hI hh' hfd' hpid'
  cases hA.ejecucion.unica cpu cpu' pid hejecuta hejecuta'
  cases hs.symm.trans hs'
  exact ⟨modulo_unico hI hh hh' hfd hfd', hA.ejecucion.enCola cpu pid hejecuta⟩

theorem un_proceso_una_cpu_ejemplo : ∃ s, tras configuracion hastaEjecutar = some s ∧
    Hilo.modulo ⟨0, 1, 2, 1, some (1, 0), false, []⟩ = .modulo
      ⟨0, 1, 2, 1, some (1, 0), false, []⟩ ∧
      0 ∈ s.comun.colas .running := by
  have hobs : (tras configuracion hastaEjecutar).map (fun s =>
      (decide (.modulo ⟨0, 1, 2, 1, some (1, 0), false, []⟩ ∈ s.hilos),
        decide (0 ∈ ((conexionDe s 0).linea
          (.modulo ⟨0, 1, 2, 1, some (1, 0), false, []⟩)).procesos), s.comun.indefinido)) =
        some (true, true, false) := by decide +kernel
  have hC : Cumple (paso (programa configuracion)) NombreNuevo
      (agenda (programa configuracion) hastaEjecutar (arranque configuracion [65] 10 none))
      (arranque configuracion [65] 10 none) := by decide +kernel
  obtain ⟨s, hs, h⟩ := Option.map_eq_some_iff.mp hobs
  simp only [Prod.mk.injEq, decide_eq_true_eq] at h
  exact ⟨s, hs, un_proceso_una_cpu hC hs h.2.2 h.1 h.1 rfl rfl h.2.1 h.2.1⟩

end Corridas

end KernelLineas
