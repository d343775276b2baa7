import Tpssoo.KernelSolicitudes
import Tpssoo.KernelDesconexion

/-!
# The duration of a request

`bloquear_proceso` writes the duration in the PCB and queues a request with the same one. No
other thread writes that field, so the PCB keeps what was sent for as long as the request is
outstanding, and `manejar_desconexion_io` may read it there.
-/
namespace KernelDuraciones

open EnterosC Protocolo KernelEstado KernelFunciones KernelHilos KernelVistas KernelPcbs
open KernelLargoPlazo KernelSaludos KernelSuspension KernelDispositivos KernelFlujos KernelLugares
open KernelPedidos KernelSolicitudes KernelDesconexion
open Entrelazado Tartamudeo

/-- `tiempo_bloqueo_io` of each process. -/
def duraciones (k : Kernel) (p : ℤ) : Option ℤ := (k.pcbs p).map Pcb.tiempoBloqueoIo

/-- The PCB of a request, if there is one, has the same duration. -/
def Fiel (d : ℤ → Option ℤ) (sol : Solicitud) : Prop := ∀ t, d sol.pid = some t → t = sol.tiempo

def ultima (ms : List Mensaje) : Option Solicitud := (solicitudes ms).getLast?

/-- The requests of a group, in its queue and in flight at its instances. -/
structure GrupoFiel (d : ℤ → Option ℤ) (e : Canal → List Mensaje) (g : GrupoIo) : Prop where
  cola : ∀ sol ∈ g.colaEsperaCompartida, Fiel d sol
  vuelo : ∀ x ∈ g.instancias, x.ocupado = true → ∃ sol,
    ultima (e (.io x.socketFd)) = some sol ∧ sol.pid = x.pidEnEjecucion ∧ Fiel d sol

def Fieles (k : Kernel) : Prop :=
  ∀ g ∈ k.dispositivosIo, GrupoFiel (duraciones k) k.enviados g

/-- The requests about to be queued, and those that have been. -/
structure Duraciones (s : Sistema Kernel Hilo) : Prop where
  hilos : ∀ cpu p g t, .escuchaEncola cpu p g t ∈ s.hilos → Fiel (duraciones s.comun) ⟨p, t⟩
  grupos : Fieles s.comun

section Escrituras

variable {c : ConfigKernel} {k k' : Kernel} {a : Accion} {p q : ℤ}

theorem duraciones_de (h : vistaPcbs k' = vistaPcbs k) : duraciones k' = duraciones k :=
  congrArg (fun (v : VistaPcbs) p => (v.pcbs p).map Pcb.tiempoBloqueoIo) h

theorem duracion_cambiarEstado (ahora : ℤ) (e : Estado) (b : Pcb) :
    (b.cambiarEstado ahora e).tiempoBloqueoIo = b.tiempoBloqueoIo := by
  rw [Pcb.cambiarEstado]
  split <;> rfl

theorem duracion_actualizarRafaga (c : ConfigKernel) (ahora pc : ℤ) (motivo : Motivo) (b : Pcb) :
    (actualizarRafaga c ahora pc motivo b).tiempoBloqueoIo = b.tiempoBloqueoIo := by
  simp only [actualizarRafaga, calcularSiguienteRafaga]
  split
  · rfl
  · split <;> rfl

/-- Another field of a block is written. -/
theorem duraciones_update {f : Pcb → Pcb} (hf : ∀ b, (f b).tiempoBloqueoIo = b.tiempoBloqueoIo)
    (hpcbs : k'.pcbs = Function.update k.pcbs q ((k.pcbs q).map f)) :
    duraciones k' = duraciones k := by
  funext p
  rw [duraciones, duraciones, hpcbs]
  by_cases h : p = q
  · subst h
    rw [Function.update_self, Option.map_map]
    exact congrArg (fun g => (k.pcbs p).map g) (funext hf)
  · rw [Function.update_of_ne h]

theorem duraciones_estado {e : Estado} (hpcbs : k'.pcbs = (k.cambiarEstado q e).pcbs) :
    duraciones k' = duraciones k := duraciones_update (duracion_cambiarEstado k.reloj e) hpcbs

theorem duraciones_terminarDump (q : ℤ) : duraciones (terminarDump k q) = duraciones k := by
  rw [terminarDump]
  split
  · rfl
  · rfl
  split
  · exact duraciones_estado rfl
  split
  · exact duraciones_estado rfl
  · rfl

theorem duraciones_resolverDump (ok : Bool) :
    duraciones (resolverDump k p ok) = duraciones k := by
  rw [resolverDump]
  split
  · rfl
  split
  · exact duraciones_terminarDump _
  split
  · rfl
  · rfl
  · next q _ =>
      obtain ⟨colas, h⟩ := quitarBloqueado_eq k q
      rw [h]
      exact duraciones_estado rfl

theorem duraciones_despertarDeIo (q : ℤ) : duraciones (despertarDeIo c k q) = duraciones k := by
  rw [despertarDeIo]
  split
  · rfl
  · rfl
  split
  · exact (duraciones_de (vistaPcbs_desalojar c _ _)).trans (duraciones_estado rfl)
  split
  · exact duraciones_estado rfl
  · rfl

theorem duraciones_manejarFinIo (q : ℤ) (fd : ℕ) :
    duraciones (manejarFinIo c k q fd) = duraciones k := by
  rw [manejarFinIo]
  split
  · rfl
  · exact duraciones_despertarDeIo q

/-- The actions that write the duration of a process, or free its block. -/
def escribe : Accion → Bool
  | .gestorLibera _ _ | .recibeInitProc _ _ _ _ _ | .escuchaBloquea _ _ _ _ => true
  | _ => false

theorem duraciones_efecto (ha : escribe a = false) :
    duraciones ((programa c).efecto k a) = duraciones k := by
  cases a with
  | gestorLibera _ _ | recibeInitProc _ _ _ _ _ | escuchaBloquea _ _ _ _ => cases ha
  | largoElige => exact duraciones_de (vistaPcbs_elegirCandidato c k)
  | largoEnvia pcb susp | gestorEnvia pcb | dumpEnvia pcb =>
    dsimp only [programa, transicion]
    split <;> rfl
  | largoResuelve pcb susp ok =>
    cases ok with
    | false => rfl
    | true => exact (duraciones_de (vistaPcbs_desalojar c _ pcb)).trans (duraciones_estado rfl)
  | cortoPlanifica =>
    dsimp only [programa, transicion]
    rcases planificar_casos c k with h | h | ⟨pcb, resto, -, -, h⟩ | ⟨pcb, resto, i, cpu, -, -,
        h⟩ <;> rw [h]
    · rfl
    · rfl
    · rfl
    · refine duraciones_update (q := pcb) (f := fun b =>
        { b.cambiarEstado k.reloj .running with tiempoInicioEjecucionCpu := aInt k.reloj }) ?_ rfl
      exact duracion_cambiarEstado k.reloj .running
  | gestorToma =>
    dsimp only [programa, transicion]
    split
    · rfl
    · exact duraciones_estado rfl
  | suspensionVence q desde bloqueo =>
    dsimp only [programa, transicion]
    split
    · rfl
    · rfl
    split
    · exact duraciones_estado rfl
    · rfl
  | suspensionResuelve ok =>
    dsimp only [programa, transicion]
    split <;> rfl
  | dumpFallaConexion pcb => exact duraciones_estado rfl
  | dumpResuelve pcb ok => exact duraciones_resolverDump ok
  | cpuRegistra fd nombre => exact duraciones_de (vistaPcbs_registrarCpu k fd nombre)
  | interruptRegistra fd nombre =>
    dsimp only [programa, transicion]
    split <;> rfl
  | recibeRespuesta cpu fd q pc motivo =>
    dsimp only [programa, transicion, recibirRespuesta]
    split
    · rfl
    split
    · rfl
    split
    · rfl
    · exact duraciones_update (duracion_actualizarRafaga c k.reloj pc motivo) rfl
  | recibeOtro cpu fd =>
    dsimp only [programa, transicion]
    split <;> rfl
  | escuchaCambiaExit cpu pcb => exact duraciones_estado rfl
  | escuchaEncola cpu pcb grupo duracion =>
    exact duraciones_de (vistaPcbs_encolarSolicitud k grupo pcb duracion)
  | escuchaBloqueaDump cpu pcb => exact duraciones_estado rfl
  | escuchaCambiaReady cpu pcb => exact duraciones_estado rfl
  | escuchaDesaloja cpu pcb => exact duraciones_de (vistaPcbs_desalojar c k pcb)
  | escuchaFinaliza cpu pcb => exact duraciones_estado rfl
  | escuchaRevisa cpu =>
    dsimp only [programa, transicion]
    split
    · rfl
    · exact duraciones_estado rfl
  | ioRegistra fd nombre => exact duraciones_de (vistaPcbs_registrarInstancia k nombre fd)
  | ioDespacha grupo => exact duraciones_de (vistaPcbs_despacharGrupo k grupo)
  | ioTermina fd nombre terminadas q => exact duraciones_manejarFinIo q fd
  | ioDesconecta fd nombre terminadas =>
    exact duraciones_de (vistaPcbs_manejarDesconexionIo k nombre fd)
  | ioFinaliza pcb resto => exact duraciones_estado rfl
  | _ => rfl

theorem duraciones_bloquear (q t : ℤ) (hp : p ≠ q) :
    duraciones (bloquearPorIo k q t) p = duraciones k p := by
  have hpcbs : (bloquearPorIo k q t).pcbs p = k.pcbs p :=
    (Function.update_of_ne hp _ _).trans (Function.update_of_ne hp _ _)
  rw [duraciones, hpcbs, duraciones]

theorem duracion_bloqueado {t u : ℤ} (h : duraciones (bloquearPorIo k q t) q = some u) : u = t := by
  have hpcbs : (bloquearPorIo k q t).pcbs q = ((k.pcbs q).map fun b =>
      { b with tiempoBloqueoIo := t }).map (Pcb.cambiarEstado k.reloj .blocked) := by
    refine (Function.update_self _ _ _).trans ?_
    exact congrArg (Option.map (Pcb.cambiarEstado k.reloj .blocked)) (Function.update_self _ _ _)
  rw [duraciones, hpcbs, Option.map_map, Option.map_map] at h
  obtain ⟨b, -, hb⟩ := Option.map_eq_some_iff.mp h
  exact hb.symm.trans (duracion_cambiarEstado k.reloj .blocked _)

variable {l r : List Hilo}

/-- A process that waits is in no thread's hands and is not new, so its duration stays. -/
theorem duracion_pedida (hE : EnOrden ⟨k, l ++ (programa c).origen a :: r⟩)
    (hQ : Pedidos ⟨k, l ++ (programa c).origen a :: r⟩)
    (hp : p ∈ (l ++ (programa c).origen a :: r).flatMap pide ∨ p ∈ pedidosIo k.dispositivosIo)
    {t : ℤ} (ht : duraciones ((programa c).efecto k a) p = some t) : duraciones k p = some t := by
  obtain ⟨e, -, hest, hcola⟩ := pedido_espera hQ hE.lugares hp
  cases ha : escribe a with
  | false => rwa [duraciones_efecto ha] at ht
  | true =>
    cases a with
    | gestorLibera q ok =>
      dsimp only [programa, transicion] at ht
      split at ht
      · exact ht
      · have hpcbs : (if ok then k.postNewOMemoria else k).pcbs = k.pcbs := by
          split <;> rfl
        dsimp only [duraciones] at ht
        rw [hpcbs] at ht
        by_cases h : p = q
        · subst h
          rw [Function.update_self] at ht
          cases ht
        · rwa [Function.update_of_ne h] at ht
    | recibeInitProc cpu fd path tamanio absoluto =>
      obtain ⟨e', hefecto⟩ := initProc_igual (c := c) (k := k) cpu fd path tamanio absoluto
      obtain ⟨b, -, hpcbs, -⟩ := crear_datos (recibir k fd) c path tamanio absoluto
      have hviejo : p ≠ k.ultimoPid := by
        rintro rfl
        rw [estadoDe, hE.pids.nuevos _ le_rfl] at hest
        cases hest
      have hp : ((programa c).efecto k (.recibeInitProc cpu fd path tamanio absoluto)).pcbs p =
          k.pcbs p := by
        rw [hefecto]
        exact (congrFun hpcbs p).trans (Function.update_of_ne hviejo _ _)
      rwa [duraciones, hp] at ht
    | escuchaBloquea cpu q dispositivo duracion =>
      have hotro : p ≠ q := by
        rintro rfl
        exact (hE.lugares.lugar p).sin_cola (veces_origen List.mem_cons_self) e hcola
      dsimp only [programa, transicion] at ht
      split at ht
      · exact ht
      · rwa [duraciones_bloquear q duracion hotro] at ht
    | _ => cases ha

end Escrituras

section Grupos

variable {d d' : ℤ → Option ℤ} {e e' : Canal → List Mensaje} {g g' : GrupoIo} {sol : Solicitud}

theorem ultima_io (ms : List Mensaje) (nombre : List Byte) (sol : Solicitud) :
    ultima (ms ++ [.io nombre sol]) = some sol := by
  rw [ultima, solicitudes_append, solicitudes_io, List.getLast?_concat]

theorem Fiel.cambia (h : Fiel d sol) (hd : ∀ t, d' sol.pid = some t → d sol.pid = some t) :
    Fiel d' sol := fun t ht => h t (hd t ht)

/-- Neither the PCBs of its requests nor the last packets of its connections change. -/
theorem GrupoFiel.cambia (h : GrupoFiel d e g)
    (hd : ∀ p ∈ pedidosDe g, ∀ t, d' p = some t → d p = some t)
    (he : ∀ fd, ultima (e' (.io fd)) = ultima (e (.io fd))) : GrupoFiel d' e' g := by
  refine ⟨fun sol hsol => ?_, fun x hx hocupado => ?_⟩
  · exact (h.cola sol hsol).cambia
      (hd _ (List.mem_append_right _ (List.mem_map.mpr ⟨sol, hsol, rfl⟩)))
  · obtain ⟨sol, hultima, hpid, hfiel⟩ := h.vuelo x hx hocupado
    have hmem : sol.pid ∈ pedidosDe g := by
      refine List.mem_append_left _ (List.mem_flatMap.mpr ⟨x, hx, ?_⟩)
      rw [pedido, if_pos hocupado, hpid]
      exact List.mem_cons_self
    exact ⟨sol, (he _).trans hultima, hpid, hfiel.cambia (hd _ hmem)⟩

/-- The instances of a group with fewer requests. -/
theorem GrupoFiel.menos (h : GrupoFiel d e g) (hcola : ∀ sol ∈ g'.colaEsperaCompartida, Fiel d sol)
    (hinst : ∀ x ∈ g'.instancias, x.ocupado = true → x ∈ g.instancias) : GrupoFiel d e g' :=
  ⟨hcola, fun x hx hocupado => h.vuelo x (hinst x hx hocupado) hocupado⟩

/-- The dispatcher sends requests of the queue, each to an instance that was idle. -/
theorem fiel_despacharCola (q : List Solicitud) (hfds : (fds g).Nodup)
    (hq : ∀ sol ∈ q, Fiel d sol) (h : GrupoFiel d e { g with colaEsperaCompartida := [] }) :
    GrupoFiel d ((despacharCola g q).2.foldl
      (enviarPedido (despacharCola g q).1.nombreDispositivo) e) (despacharCola g q).1 := by
  rw [(datos_despacharCola q).2]
  induction q generalizing g e with
  | nil => exact h
  | cons sol q ih =>
    have hresto : GrupoFiel d e { g with colaEsperaCompartida := sol :: q } := ⟨hq, h.vuelo⟩
    rw [despacharCola]
    split
    · exact hresto
    next i hi =>
    split
    · exact hresto
    next x hx =>
    have hset : fds { g with
        instancias := g.instancias.set i { x with ocupado := true, pidEnEjecucion := sol.pid }
        ultimoDespachoIdx := i } = fds g := map_set_igual hx rfl
    refine ih (hset ▸ hfds) (fun y hy => hq y (List.mem_cons_of_mem _ hy))
      ⟨fun _ hsol => absurd hsol List.not_mem_nil, fun y hy hocupado => ?_⟩
    obtain ⟨hlt, -⟩ := List.getElem?_eq_some_iff.mp hx
    rw [enviarPedido]
    by_cases heq : x.socketFd = y.socketFd
    · -- no other instance has the connection
      have hy' := List.inj_on_of_nodup_map (Eq.mpr (congrArg List.Nodup hset) hfds) hy
        (List.mem_set hlt _) heq.symm
      rw [← heq, Function.update_self, hy']
      exact ⟨sol, ultima_io _ _ _, rfl, hq sol List.mem_cons_self⟩
    · rw [Function.update_of_ne fun heq' => heq (Canal.io.inj heq').symm]
      rcases List.mem_or_eq_of_mem_set hy with hy | rfl
      · exact h.vuelo y hy hocupado
      · exact absurd rfl heq

theorem fiel_despachar (hfds : (fds g).Nodup) (h : GrupoFiel d e g) :
    GrupoFiel d ((despacharIoSiEsPosible g).2.foldl
      (enviarPedido (despacharIoSiEsPosible g).1.nombreDispositivo) e)
      (despacharIoSiEsPosible g).1 :=
  fiel_despacharCola _ hfds h.cola ⟨fun _ hsol => absurd hsol List.not_mem_nil, h.vuelo⟩

variable {k k' : Kernel} {gs gs' : List GrupoIo} {n fd : ℕ} {nombre : List Byte}

theorem Fieles.cambia (h : Fieles k) (hds : k'.dispositivosIo = k.dispositivosIo)
    (hd : ∀ p ∈ pedidosIo k.dispositivosIo, ∀ t, duraciones k' p = some t → duraciones k p = some t)
    (he : ∀ fd, ultima (k'.enviados (.io fd)) = ultima (k.enviados (.io fd))) : Fieles k' := by
  intro g hg
  rw [hds] at hg
  exact (h g hg).cambia (fun p hp => hd p (List.mem_flatMap.mpr ⟨g, hg, hp⟩)) he

/-- A group is dispatched and written back. -/
theorem fieles_guardar (hk : k.dispositivosIo = gs ++ g :: gs')
    (hR : Registrados k.dispositivosIo n) (hid : g'.id = g.id) (hfds : (fds g').Sublist (fds g))
    (hg : GrupoFiel (duraciones k) k.enviados g') (h : Fieles k) :
    Fieles (guardarGrupo k (despacharIoSiEsPosible g')) := by
  rw [hk] at hR
  have hmem : g ∈ gs ++ g :: gs' := List.mem_append_right _ List.mem_cons_self
  have hds : (guardarGrupo k (despacharIoSiEsPosible g')).dispositivosIo =
      gs ++ (despacharIoSiEsPosible g').1 :: gs' := by
    rw [guardarGrupo, hk]
    exact reemplaza hR.ids ((datos_despacharCola _).1.trans hid)
  have henv := (fds_despacharCola (g := g') g'.colaEsperaCompartida).2
  intro y hy
  rw [hds] at hy
  have hy' : y = (despacharIoSiEsPosible g').1 ∨ y ∈ gs ++ gs' := by
    simp only [List.mem_append, List.mem_cons] at hy ⊢
    tauto
  rcases hy' with rfl | hotro
  · exact fiel_despachar ((hR.nodup hmem).sublist hfds) hg
  · have hyk : y ∈ k.dispositivosIo := by
      rw [hk]
      simp only [List.mem_append, List.mem_cons] at hotro ⊢
      tauto
    refine ⟨(h y hyk).cola, fun x hx hocupado => ?_⟩
    -- nothing is sent to the connections of another group
    have hajeno : ∀ z ∈ (despacharIoSiEsPosible g').2, z.1 ≠ x.socketFd := by
      intro z hz heq
      have hfd : x.socketFd ∈ fds g := hfds.subset (heq ▸ henv z hz)
      exact hR.ajena hfd (List.mem_flatMap.mpr ⟨y, hotro, List.mem_map.mpr ⟨x, hx, rfl⟩⟩)
    obtain ⟨sol, hultima, hpid, hfiel⟩ := (h y hyk).vuelo x hx hocupado
    have henviados : (guardarGrupo k (despacharIoSiEsPosible g')).enviados (.io x.socketFd) =
        k.enviados (.io x.socketFd) := enviarPedidos_ajenos _ hajeno
    exact ⟨sol, (congrArg ultima henviados).trans hultima, hpid, hfiel⟩

theorem fieles_encolar {grupo : ℕ} {q t : ℤ} (h : Fieles k)
    (hR : Registrados k.dispositivosIo k.totalGrupos) (hP : Pids k)
    (hq : Fiel (duraciones k) ⟨q, t⟩) : Fieles (encolarSolicitud k grupo q t) := by
  rw [encolarSolicitud]
  split
  · next g b hg hb =>
      have hmem : g ∈ k.dispositivosIo := List.mem_of_find?_eq_some hg
      obtain ⟨gs, gs', hk⟩ := List.append_of_mem hmem
      refine fieles_guardar hk hR rfl (.refl _) ⟨fun sol hsol => ?_, (h g hmem).vuelo⟩ h
      rcases List.mem_append.mp hsol with hsol | hsol
      · exact (h g hmem).cola sol hsol
      · rw [List.mem_singleton.mp hsol, hP.propios q b hb]
        exact hq
  · exact h

theorem fieles_despacharGrupo {grupo : ℕ} (h : Fieles k)
    (hR : Registrados k.dispositivosIo k.totalGrupos) : Fieles (despacharGrupo k grupo) := by
  rw [despacharGrupo]
  split
  · next g hg =>
      have hmem : g ∈ k.dispositivosIo := List.mem_of_find?_eq_some hg
      obtain ⟨gs, gs', hk⟩ := List.append_of_mem hmem
      exact fieles_guardar hk hR rfl (.refl _) (h g hmem) h
  · exact h

theorem fieles_finIo {c : ConfigKernel} {pid : ℤ} (h : Fieles k)
    (hR : Registrados k.dispositivosIo k.totalGrupos) : Fieles (manejarFinIo c k pid fd) := by
  rw [manejarFinIo]
  split
  · exact h
  · next g hg =>
      have hmem : g ∈ k.dispositivosIo := List.mem_of_find?_eq_some hg
      obtain ⟨gs, gs', hk⟩ := List.append_of_mem hmem
      have hds : (despertarDeIo c k pid).dispositivosIo = k.dispositivosIo :=
        congrArg VistaIo.dispositivos (vistaIo_despertarDeIo c k pid)
      have henv : ∀ fd, (despertarDeIo c k pid).enviados (.io fd) = k.enviados (.io fd) :=
        congrFun (congrArg VistaIo.enviados (vistaIo_despertarDeIo c k pid))
      have hdespierta : Fieles (despertarDeIo c k pid) := by
        refine h.cambia hds (fun p _ t ht => ?_) fun fd => congrArg ultima (henv fd)
        rwa [duraciones_despertarDeIo] at ht
      have hfiel := hdespierta g (hds ▸ hmem)
      have hfds : (fds (liberarInstancia g fd)).Sublist (fds g) := by
        rw [fds_liberar]
      refine fieles_guardar (hds.trans hk) (hds ▸ hR) rfl hfds ?_ hdespierta
      refine hfiel.menos hfiel.cola fun x hx hocupado => ?_
      obtain ⟨y, hy, rfl⟩ := List.mem_map.mp hx
      split at hocupado
      · cases hocupado
      · next hfd => rwa [if_neg hfd]

/-- The request in flight at a lost instance, with the duration that the PCB has. -/
theorem fiel_reencolar {x : Instancia} (hP : Pids k) (h : GrupoFiel (duraciones k) k.enviados g)
    (hg' : reencolar k g x = some g') :
    ∀ sol ∈ g'.colaEsperaCompartida, Fiel (duraciones k) sol := by
  rw [reencolar] at hg'
  split at hg'
  · split at hg'
    · cases hg'
    · cases hg'
      exact h.cola
    · next q _ =>
        obtain ⟨b, hb, rfl⟩ := Option.map_eq_some_iff.mp hg'
        intro sol hsol
        rcases List.mem_cons.mp hsol with rfl | hsol
        · intro t ht
          rw [duraciones, hP.propios q b hb, hb] at ht
          exact (Option.some.inj ht).symm
        · exact h.cola sol hsol
  · cases hg'
    exact h.cola

theorem fieles_desconexion (h : Fieles k) (hR : Registrados k.dispositivosIo k.totalGrupos)
    (hP : Pids k) : Fieles (manejarDesconexionIo k nombre fd).1 := by
  rw [manejarDesconexionIo]
  split
  · exact h
  next g hg =>
  split
  · exact h
  next x _ =>
  split
  · exact h
  next g₁ hg₁ =>
  have hmem : g ∈ k.dispositivosIo := List.mem_of_find?_eq_some hg
  obtain ⟨hinst, hid⟩ := instancias_reencolar hg₁
  dsimp only
  split
  · obtain ⟨colas, i, hvaciar⟩ := vaciarEspera_eq k g₁.colaEsperaCompartida
    intro y hy
    rw [hvaciar] at hy ⊢
    exact h y (List.mem_filter.mp hy).1
  · obtain ⟨gs, gs', hk⟩ := List.append_of_mem hmem
    have hsub : (g₁.instancias.filter fun y => y.socketFd ≠ fd).Sublist g.instancias :=
      hinst ▸ List.filter_sublist
    have hcola := fiel_reencolar hP (h g hmem) hg₁
    refine fieles_guardar hk hR hid (hsub.map _) ?_ h
    exact (h g hmem).menos hcola fun y hy _ => hsub.subset hy

/-- A new instance is idle. -/
theorem fieles_registrar (h : Fieles k) : Fieles (registrarInstancia k nombre fd).1 := by
  rw [registrarInstancia]
  split
  · intro y hy
    obtain ⟨g, hg, rfl⟩ := List.mem_map.mp hy
    have hfiel := h g hg
    split
    · refine hfiel.menos hfiel.cola fun x hx hocupado => ?_
      rcases List.mem_append.mp hx with hx | hx
      · exact hx
      · rw [List.mem_singleton.mp hx] at hocupado
        cases hocupado
    · exact hfiel
  · intro y hy
    rcases List.mem_append.mp hy with hy | hy
    · exact h y hy
    · rw [List.mem_singleton.mp hy]
      refine ⟨fun _ hsol => absurd hsol List.not_mem_nil, fun x hx hocupado => ?_⟩
      rw [List.mem_singleton.mp hx] at hocupado
      cases hocupado

end Grupos

section Pasos

variable {c : ConfigKernel} {k : Kernel} {l r : List Hilo} {a : Accion}

/-- A thread about to queue a request has just written its duration. -/
theorem fiel_nueva {cpu grupo : ℕ} {p t : ℤ}
    (hmem : Hilo.escuchaEncola cpu p grupo t ∈ (programa c).destino k a) :
    Fiel (duraciones ((programa c).efecto k a)) ⟨p, t⟩ := by
  cases a with
  | escuchaBloquea cpu q dispositivo duracion =>
    dsimp only [programa, transicion] at hmem ⊢
    split at hmem
    · simp at hmem
    · simp only [List.mem_cons, Hilo.escuchaEncola.injEq, List.not_mem_nil, reduceCtorEq,
        or_false] at hmem
      obtain ⟨-, rfl, -, rfl⟩ := hmem
      exact fun _ => duracion_bloqueado
  | recibeRespuesta cpu fd pid pc motivo =>
    dsimp only [programa, transicion, trasRespuesta] at hmem
    repeat' split at hmem
    all_goals cases motivo <;> simp [segunMotivo] at hmem
  | _ =>
    dsimp only [programa, transicion, trasDump] at hmem
    repeat' split at hmem
    all_goals simp at hmem

theorem fieles_paso (hE : EnOrden ⟨k, l ++ (programa c).origen a :: r⟩)
    (hQ : Pedidos ⟨k, l ++ (programa c).origen a :: r⟩)
    (h : Duraciones ⟨k, l ++ (programa c).origen a :: r⟩) : Fieles ((programa c).efecto k a) := by
  have hR : Registrados k.dispositivosIo k.totalGrupos := hE.flujos.grupos
  have hd : ∀ p ∈ pedidosIo k.dispositivosIo, ∀ t,
      duraciones ((programa c).efecto k a) p = some t → duraciones k p = some t :=
    fun p hp t ht => duracion_pedida hE hQ (Or.inr hp) ht
  have hgrupos : Fieles k := h.grupos
  cases hto : tocaIo a with
  | false =>
    have hvista := vistaIo_efecto c k hto
    exact hgrupos.cambia (congrArg VistaIo.dispositivos hvista) hd fun fd =>
      congrArg ultima (congrFun (congrArg VistaIo.enviados hvista) fd)
  | true =>
    cases a with
    | conectaCpu _ | conectaIo _ | moduloSaluda _ _ => exact hgrupos.cambia rfl hd fun _ => rfl
    | ioResponde fd grupo =>
      refine hgrupos.cambia rfl hd fun fd' => ?_
      by_cases heq : fd' = fd
      · subst heq
        have henv : ((programa c).efecto k (.ioResponde fd' grupo)).enviados (.io fd') =
            k.enviados (.io fd') ++ [.handshakeOk] := k.enviar_mismo _
        rw [henv, ultima, solicitudes_append]
        exact congrArg List.getLast? (List.append_nil _)
      · exact congrArg ultima (k.enviar_otro _ (by simpa using heq))
    | escuchaEncola cpu q grupo duracion =>
      exact fieles_encolar hgrupos hR hE.pids
        (h.hilos cpu q grupo duracion (mem_medio.mpr (Or.inl rfl)))
    | ioRegistra fd nombre => exact fieles_registrar hgrupos
    | ioDespacha grupo => exact fieles_despacharGrupo hgrupos hR
    | ioTermina fd nombre t pid => exact fieles_finIo hgrupos hR
    | ioDesconecta fd nombre t => exact fieles_desconexion hgrupos hR hE.pids
    | _ => cases hto

theorem duraciones_paso (hE : EnOrden ⟨k, l ++ (programa c).origen a :: r⟩)
    (hQ : Pedidos ⟨k, l ++ (programa c).origen a :: r⟩)
    (h : Duraciones ⟨k, l ++ (programa c).origen a :: r⟩) :
    Duraciones ⟨(programa c).efecto k a, l ++ ((programa c).destino k a ++ r)⟩ := by
  refine ⟨fun cpu p grupo t hmem => ?_, fieles_paso hE hQ h⟩
  have hcasos : .escuchaEncola cpu p grupo t ∈ (programa c).destino k a ∨
      .escuchaEncola cpu p grupo t ∈ l ++ r := by
    simp only [List.mem_append] at hmem ⊢
    tauto
  rcases hcasos with hnueva | hotra
  · exact fiel_nueva hnueva
  · have hvieja : .escuchaEncola cpu p grupo t ∈ l ++ (programa c).origen a :: r :=
      mem_medio.mpr (Or.inr hotra)
    refine (h.hilos cpu p grupo t hvieja).cambia fun u hu => ?_
    exact duracion_pedida hE hQ (Or.inl (List.mem_flatMap.mpr ⟨_, hvieja, List.mem_cons_self⟩)) hu

end Pasos

section Corridas

variable {s : Sistema Kernel Hilo} {k : Kernel} {n : ℕ}

/-- The device that a process waits for is the one of the group with its request. -/
def dispositivoDe (k : Kernel) (p : ℤ) : Option (List Byte) :=
  (k.dispositivosIo.find? fun g => p ∈ pedidosDe g).map GrupoIo.nombreDispositivo

/-- No process has been put in a queue whose state it has still to be given. -/
def AlDia (s : Sistema Kernel Hilo) : Prop := s.hilos.filterMap debe = []

theorem vuelos_de_duraciones (hL : Lugares s) (hQ : Pedidos s) (h : Duraciones s) {g : GrupoIo}
    (hg : g ∈ s.comun.dispositivosIo) {x : Instancia} (hx : x ∈ g.instancias)
    (hocupado : x.ocupado = true) : ∃ b, s.comun.pcbs x.pidEnEjecucion = some b ∧
      ultimoPedido s.comun x = some ⟨x.pidEnEjecucion, b.tiempoBloqueoIo⟩ := by
  have hpedido : x.pidEnEjecucion ∈ pedidosIo s.comun.dispositivosIo := by
    refine List.mem_flatMap.mpr ⟨g, hg, List.mem_append_left _ (List.mem_flatMap.mpr ⟨x, hx, ?_⟩)⟩
    rw [pedido, if_pos hocupado]
    exact List.mem_cons_self
  obtain ⟨e, -, hest, -⟩ := pedido_espera hQ hL (Or.inr hpedido)
  obtain ⟨b, hb, -⟩ := Option.map_eq_some_iff.mp hest
  obtain ⟨⟨pid, tiempo⟩, hultima, rfl, hfiel⟩ := (h.grupos g hg).vuelo x hx hocupado
  have htiempo : b.tiempoBloqueoIo = tiempo :=
    hfiel b.tiempoBloqueoIo (congrArg (Option.map Pcb.tiempoBloqueoIo) hb)
  refine ⟨b, hb, ?_⟩
  rw [htiempo]
  exact hultima

theorem dispositivo_iff (hR : Registrados k.dispositivosIo n) {g : GrupoIo}
    (hg : g ∈ k.dispositivosIo) {p : ℤ} (huno : (pedidosIo k.dispositivosIo).count p ≤ 1) :
    dispositivoDe k p = some g.nombreDispositivo ↔ p ∈ pedidosDe g := by
  have hmem : ∀ {y}, k.dispositivosIo.find? (fun g => p ∈ pedidosDe g) = some y →
      y ∈ k.dispositivosIo ∧ p ∈ pedidosDe y := by
    intro y hy
    have hp := List.find?_some hy
    exact ⟨List.mem_of_find?_eq_some hy, of_decide_eq_true hp⟩
  constructor
  · intro h
    obtain ⟨y, hy, hnombre⟩ := Option.map_eq_some_iff.mp h
    obtain ⟨hyk, hp⟩ := hmem hy
    rwa [← List.inj_on_of_nodup_map hR.nombres hyk hg hnombre]
  · intro hp
    cases hbusca : k.dispositivosIo.find? fun g => p ∈ pedidosDe g with
    | none => exact absurd (decide_eq_true hp) (List.find?_eq_none.mp hbusca g hg)
    | some y =>
      obtain ⟨hyk, hpy⟩ := hmem hbusca
      have hyg : y = g := by
        by_contra hne
        obtain ⟨gs, gs', hk⟩ := List.append_of_mem hg
        rw [hk, count_pedidos] at huno
        rw [hk] at hyk
        have hotro : y ∈ gs ++ gs' := by
          simp only [List.mem_append, List.mem_cons] at hyk ⊢
          tauto
        have hpos : 0 < (pedidosDe g).count p := List.count_pos_iff.mpr hp
        have hpos' : 0 < (pedidosIo (gs ++ gs')).count p :=
          List.count_pos_iff.mpr (List.mem_flatMap.mpr ⟨y, hotro, hpy⟩)
        omega
      rw [dispositivoDe, hbusca, hyg]
      rfl

theorem estadoIo_de_orden (hE : EnOrden s) (hQ : Pedidos s) (hD : Duraciones s) (hdia : AlDia s) :
    EstadoIo (dispositivoDe s.comun) s.comun := by
  have hL := hE.lugares
  have hR : Registrados s.comun.dispositivosIo s.comun.totalGrupos := hE.flujos.grupos
  constructor
  · intro e p hp
    obtain ⟨e', hest, -, hcon⟩ := (hL.lugar p).sitio (veces_cola hp)
    obtain ⟨b, hb, hestado⟩ := Option.map_eq_some_iff.mp hest
    refine ⟨b, hb, hE.pids.propios p b hb, hestado.trans ?_⟩
    rcases hcon with rfl | ⟨-, hdebe⟩
    · rfl
    · rw [hdia] at hdebe
      cases hdebe
  · intro e
    refine List.nodup_iff_count_le_one.mpr fun p => ?_
    by_cases hp : p ∈ s.comun.colas e
    · obtain ⟨-, -, hsolo, -⟩ := (hL.lugar p).sitio (veces_cola hp)
      have huno : (s.comun.colas e).count p = _ := hsolo (.cola e)
      rw [huno, if_pos rfl]
    · rw [List.count_eq_zero.mpr hp]
      exact Nat.zero_le 1
  · exact hR
  · intro g hg p
    have huno : (pedidosIo s.comun.dispositivosIo).count p ≤ 1 := by
      have hcuenta := hQ p
      have hle := bloqueos_le hL p
      omega
    have hde : (pedidosDe g).Sublist (pedidosIo s.comun.dispositivosIo) := by
      rw [pedidosIo, List.flatMap_def]
      exact List.sublist_flatten_of_mem (List.mem_map.mpr ⟨g, hg, rfl⟩)
    have hle := (hde.count_le p).trans huno
    split
    · next hen =>
        have hpos := List.count_pos_iff.mpr ((dispositivo_iff hR hg huno).mp hen.1)
        omega
    · next hno =>
        refine List.count_eq_zero.mpr fun hmem => hno ⟨(dispositivo_iff hR hg huno).mpr hmem, ?_⟩
        obtain ⟨e, rfl | rfl, -, hcola⟩ :=
          pedido_espera hQ hL (Or.inr (List.mem_flatMap.mpr ⟨g, hg, hmem⟩))
        · exact Or.inl hcola
        · exact Or.inr hcola
  · exact fun g hg x hx hocupado => vuelos_de_duraciones hL hQ hD hg hx hocupado

/-- What the loss of an IO module starts from, in every run of clean steps in which no request
goes to a group that has been destroyed. -/
theorem estadoIo_corrida (c : ConfigKernel) (path : List Byte) (tamanio : ℤ)
    (absoluto : Option (List Byte))
    (h : Llega (programa c) (Vigente c) (arranque c path tamanio absoluto) s) (hdia : AlDia s) :
    EstadoIo (dispositivoDe s.comun) s.comun := by
  have hsin : (arranque c path tamanio absoluto).comun.dispositivosIo = [] :=
    congrArg VistaIo.dispositivos (vistaIo_crearPcb c inicial path tamanio absoluto)
  have hduraciones : Duraciones (arranque c path tamanio absoluto) := by
    refine ⟨fun cpu p g t hmem => ?_, fun g hg => ?_⟩
    · simp [arranque] at hmem
    · rw [hsin] at hg
      cases hg
  obtain ⟨⟨hE, hQ⟩, hD⟩ : (EnOrden s ∧ Pedidos s) ∧ Duraciones s := by
    refine invariante_llega (I := fun s => (EnOrden s ∧ Pedidos s) ∧ Duraciones s) ?_
      ⟨vigentes_inicial c path tamanio absoluto, hduraciones⟩ h
    rintro k l r a ⟨hI, hD⟩ hg hC
    exact ⟨vigentes_paso hI hg hC, duraciones_paso hI.1 hI.2 hD⟩
  exact estadoIo_de_orden hE hQ hD hdia

/-- The first process waits for its device, which has its request. -/
example : ∃ s, tras configuracion hastaBloquear = some s ∧ dispositivoDe s.comun 0 = some [68] ∧
    EstadoIo (dispositivoDe s.comun) s.comun := by
  have hobs : (tras configuracion hastaBloquear).map (fun s =>
      (dispositivoDe s.comun 0, s.hilos.filterMap debe)) = some (some [68], []) := by
    decide +kernel
  have hC : Cumple (paso (programa configuracion)) (Vigente configuracion)
      (agenda (programa configuracion) hastaBloquear (arranque configuracion [65] 10 none))
      (arranque configuracion [65] 10 none) := by decide +kernel
  obtain ⟨s, hs, h⟩ := Option.map_eq_some_iff.mp hobs
  obtain ⟨hdispositivo, hdia⟩ := Prod.mk.inj h
  exact ⟨s, hs, hdispositivo, estadoIo_corrida configuracion [65] 10 none ⟨_, hC, hs⟩ hdia⟩

end Corridas

end KernelDuraciones
