import Tpssoo.KernelUnLugar

/-!
# One outstanding request for each blocked process

A process that waits for a device has one request, in the queue of a registered group or in flight
at one of its instances. `bloquear_proceso` releases `mutex_colas` before it takes the lock of the
group: if the last instance of the device disconnects in between, its group is destroyed and the
request goes to the freed block.
-/
namespace KernelSolicitudes

open EnterosC Protocolo KernelEstado KernelFunciones KernelHilos KernelVistas KernelPcbs
open KernelSaludos KernelSuspension KernelDispositivos KernelFlujos KernelLugares KernelPedidos
open KernelUnLugar
open Tartamudeo Entrelazado

/-- The processes whose requests have been sent on a connection and have not been answered to the
thread that listens to it. -/
def enVuelo (s : Sistema Kernel Hilo) (fd : ℕ) : List ℤ :=
  s.hilos.flatMap fun h => match h with
    | .escuchaIo fd' _ t =>
      if fd' = fd then ((solicitudes (s.comun.enviados (.io fd))).drop t).map Solicitud.pid else []
    | _ => []

/-- The outstanding requests, each by its process: those in flight at the instances of the
registered groups and those in their queues. -/
def pendientes (s : Sistema Kernel Hilo) : List ℤ :=
  s.comun.dispositivosIo.flatMap fun g =>
    (g.instancias.flatMap fun x => enVuelo s x.socketFd) ++ g.colaEsperaCompartida.map Solicitud.pid

/-- The process waits for a device, and neither `bloquear_proceso` nor `manejar_desconexion_io` is
in the middle of its work on it. -/
def EsperaIo (s : Sistema Kernel Hilo) (p : ℤ) : Prop :=
  EnEspera s.comun p ∧ Suelto s p ∧ p ∉ s.hilos.flatMap pide

structure SolicitudesExactas (s : Sistema Kernel Hilo) : Prop where
  una : ∀ p, EsperaIo s p → (pendientes s).count p = 1
  ocupadas : ∀ g ∈ s.comun.dispositivosIo, ∀ x ∈ g.instancias,
    enVuelo s x.socketFd = if x.ocupado then [x.pidEnEjecucion] else []
  ninguna : ∀ p, ¬ EnEspera s.comun p → p ∉ pendientes s

section Vuelos

variable {s : Sistema Kernel Hilo} {p : ℤ}

/-- What is in flight at an instance is what it is marked with. -/
theorem enVuelo_pedido (h : Flujos (vistaIo s.comun) s.hilos) {g : GrupoIo}
    (hg : g ∈ s.comun.dispositivosIo)
    {x : Instancia} (hx : x ∈ g.instancias) : enVuelo s x.socketFd = pedido x := by
  have hfd : x.socketFd ∈ fds g := List.mem_map.mpr ⟨x, hx, rfl⟩
  obtain ⟨t, ht⟩ := h.instancias g hg _ hfd
  obtain ⟨l, r, hhilos⟩ := List.append_of_mem ht
  obtain ⟨-, hcursa⟩ := h.grupoDe ht hg hfd
  have hunico : Unico conexionDe (l ++ .escuchaIo x.socketFd g.nombreDispositivo t :: r) :=
      hhilos ▸ h.hilos
  have hotros := hunico.solo (x := x.socketFd) rfl
  have hnada : ∀ d ∈ l ++ r, (match d with
      | .escuchaIo fd' _ t =>
        if fd' = x.socketFd then ((solicitudes (s.comun.enviados (.io x.socketFd))).drop t).map
          Solicitud.pid
        else []
      | _ => []) = [] := by
    intro d hd
    split
    · next fd' n t' =>
        refine if_neg fun heq => hotros (List.mem_filterMap.mpr ⟨_, hd, ?_⟩)
        exact congrArg some heq
    · rfl
  rw [enVuelo, hhilos, List.flatMap_append, List.flatMap_cons,
    List.flatMap_eq_nil_iff.mpr fun d hd => hnada d (List.mem_append_left _ hd),
    List.flatMap_eq_nil_iff.mpr fun d hd => hnada d (List.mem_append_right _ hd), List.nil_append,
    List.append_nil]
  dsimp only
  rw [if_pos rfl]
  exact (hcursa x hx rfl).resto

theorem pendientes_pedidos (h : Flujos (vistaIo s.comun) s.hilos) :
    pendientes s = pedidosIo s.comun.dispositivosIo := by
  rw [pendientes, pedidosIo]
  refine List.flatMap_congr fun g hg => ?_
  rw [pedidosDe]
  congr 1
  exact List.flatMap_congr fun x hx => enVuelo_pedido h hg hx

theorem exactas_de_pedidos (hL : Lugares s) (hF : Flujos (vistaIo s.comun) s.hilos)
    (hQ : Pedidos s) :
    SolicitudesExactas s := by
  constructor
  · rintro p ⟨hespera, hsuelto, hpide⟩
    rw [pendientes_pedidos hF]
    obtain ⟨e, hest, he⟩ := hespera.estado
    have hcola := enSuCola_de_lugares hL hsuelto
    rw [EnSuCola, hest] at hcola
    have huno : bloqueos s.comun.colas p = 1 := by
      rw [bloqueos, hcola, hcola]
      rcases he with rfl | rfl <;> rfl
    have hcero : (s.hilos.flatMap pide).count p = 0 := List.count_eq_zero.mpr hpide
    have hp := hQ p
    omega
  · intro g hg x hx
    exact enVuelo_pedido hF hg hx
  · intro p hno hmem
    rw [pendientes_pedidos hF] at hmem
    obtain ⟨e, rfl | rfl, hest, -⟩ := pedido_espera hQ hL (Or.inr hmem)
    · exact hno (Or.inl hest)
    · exact hno (Or.inr hest)

end Vuelos

section Corridas

/-- A clean step, in which the group of a request that is added is still registered. -/
def Vigente (c : ConfigKernel) (e : ℕ × Accion) (s : Sistema Kernel Hilo) : Prop :=
  Limpio c e s ∧ grupoVigente s.comun e.2 = true

instance (c : ConfigKernel) (e : ℕ × Accion) (s : Sistema Kernel Hilo) :
    Decidable (Vigente c e s) :=
  inferInstanceAs (Decidable (_ ∧ _))

theorem vigentes_inicial (c : ConfigKernel) (path : List Byte) (tamanio : ℤ)
    (absoluto : Option (List Byte)) :
    EnOrden (arranque c path tamanio absoluto) ∧ Pedidos (arranque c path tamanio absoluto) := by
  have hinicial := enOrden_inicial c path tamanio absoluto
  refine ⟨hinicial, hinicial.pedidos ?_⟩
  rw [arranque, crearPcb]
  split <;> rfl

theorem vigentes_paso {c : ConfigKernel} {k : Kernel} {l r : List Hilo} {a : Accion}
    (h : EnOrden ⟨k, l ++ (programa c).origen a :: r⟩ ∧
      Pedidos ⟨k, l ++ (programa c).origen a :: r⟩)
    (hg : (programa c).guarda k a)
    (hC : Vigente c (l.length, a) ⟨k, l ++ (programa c).origen a :: r⟩) :
    EnOrden ⟨(programa c).efecto k a, l ++ ((programa c).destino k a ++ r)⟩ ∧
      Pedidos ⟨(programa c).efecto k a, l ++ ((programa c).destino k a ++ r)⟩ := by
  obtain ⟨hE, hQ⟩ := h
  obtain ⟨hlimpio, hvigente⟩ := hC
  exact ⟨enOrden_paso hE hg hlimpio,
    pedidos_paso hQ hE.lugares hE.flujos hE.pids hg hlimpio hvigente⟩

/-- In a run of clean steps in which no request goes to a group that has been destroyed, no
request is lost or duplicated. -/
theorem solicitudes_exactas (c : ConfigKernel) (path : List Byte) (tamanio : ℤ)
    (absoluto : Option (List Byte))
    {s : Sistema Kernel Hilo} (h : Llega (programa c) (Vigente c)
      (arranque c path tamanio absoluto) s) :
    SolicitudesExactas s := by
  have hI : EnOrden s ∧ Pedidos s :=
    invariante_llega (I := fun s => EnOrden s ∧ Pedidos s) (fun _ _ _ _ => vigentes_paso)
      (vigentes_inicial c path tamanio absoluto) h
  exact exactas_de_pedidos hI.1.lugares hI.1.flujos hI.2

/-- The first process waits for its device. -/
theorem solicitudes_exactas_ejemplo : ∃ s, tras configuracion hastaBloquear = some s ∧
    pendientes s = [0] ∧ SolicitudesExactas s := by
  have hobs : (tras configuracion hastaBloquear).map pendientes = some [0] := by decide +kernel
  have hC : Cumple (paso (programa configuracion)) (Vigente configuracion)
      (agenda (programa configuracion) hastaBloquear (arranque configuracion [65] 10 none))
      (arranque configuracion [65] 10 none) := by decide +kernel
  obtain ⟨s, hs, h⟩ := Option.map_eq_some_iff.mp hobs
  exact ⟨s, hs, h, solicitudes_exactas configuracion [65] 10 none ⟨_, hC, hs⟩⟩

/-- The only instance of the device disconnects between the two critical sections of
`bloquear_proceso`. -/
def hastaPerderSolicitud : List Accion :=
  hastaEjecutar ++ [.moduloTermina ⟨0, 1, 2, 1, some (1, 0), false, []⟩ 1 (.bloqueanteIo [68] 10),
    .recibeRespuesta 0 0 0 1 (.bloqueanteIo [68] 10), .escuchaBloquea 0 0 [68] 10,
    .ioDesconecta 2 [68] 0, .escuchaEncola 0 0 0 10]

/-- The process is blocked and has no request. -/
theorem solicitud_perdida : ∃ s, tras configuracion hastaPerderSolicitud = some s ∧ EsperaIo s 0 ∧
    ¬ SolicitudesExactas s := by
  have hobs : (tras configuracion hastaPerderSolicitud).map (fun s => (vistazo s 0,
      decide (0 ∈ s.hilos.flatMap pide), pendientes s)) =
      some ((some .blocked, [0, 0, 0, 1, 0, 0, 0], true), false, []) := by decide +kernel
  obtain ⟨s, hs, h⟩ := Option.map_eq_some_iff.mp hobs
  obtain ⟨hvistazo, hresto⟩ := Prod.mk.inj h
  obtain ⟨hpide, hpendientes⟩ := Prod.mk.inj hresto
  have hespera : EsperaIo s 0 := by
    refine ⟨Or.inl (congrArg Prod.fst hvistazo), suelto_de_vistazo (by rw [hvistazo]), ?_⟩
    exact of_decide_eq_false hpide
  refine ⟨s, hs, hespera, fun hexactas => ?_⟩
  have huna := hexactas.una 0 hespera
  rw [hpendientes] at huna
  cases huna

end Corridas

end KernelSolicitudes
