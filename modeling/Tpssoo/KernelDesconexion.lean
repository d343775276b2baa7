import Tpssoo.KernelDespachoIo
import Tpssoo.KernelPedidos

/-!
# The loss of an IO module

`manejar_desconexion_io` from a state in which the requests of each device are those of the
processes blocked on it, one for each. The request in flight at the lost instance is served
again while others of its device are left, and with the last one its processes end.
-/
namespace KernelDesconexion

open EnterosC KernelEstado KernelFunciones KernelSaludos KernelDispositivos KernelDespachoIo
  KernelLugares KernelPedidos TurnoCircular

variable {k : Kernel} {dispositivo : ℤ → Option (List Byte)} {g : GrupoIo} {x : Instancia}

section Definiciones

/-- `finalizar_proceso`. -/
def finalizarProceso (k : Kernel) (pcb : ℤ) : Kernel :=
  agregarAExit (k.cambiarEstado pcb .exit) pcb

/-- `manejar_desconexion_io` in one step. -/
def desconectarIo (k : Kernel) (nombre : List Byte) (fd : ℕ) : Kernel :=
  (manejarDesconexionIo k nombre fd).2.foldl finalizarProceso (manejarDesconexionIo k nombre fd).1

/-- The process waits, suspended or not, for the device that it asked for. -/
def BloqueadoEn (dispositivo : ℤ → Option (List Byte)) (k : Kernel) (nombre : List Byte)
    (p : ℤ) : Prop :=
  dispositivo p = some nombre ∧ (p ∈ k.colas .blocked ∨ p ∈ k.colas .suspendedBlocked)

instance (nombre : List Byte) (p : ℤ) : Decidable (BloqueadoEn dispositivo k nombre p) :=
  inferInstanceAs (Decidable (_ ∧ _))

/-- The last request sent to an instance. -/
def ultimoPedido (k : Kernel) (x : Instancia) : Option Solicitud :=
  (solicitudes (k.enviados (.io x.socketFd))).getLast?

/-- The request in flight at an instance, as it was sent. -/
def enVuelo (k : Kernel) (x : Instancia) : List Solicitud :=
  if x.ocupado then (ultimoPedido k x).toList else []

/-- A state between two handlers: a process is in the queue of its state, the requests of a
device are those of the processes blocked on it, one for each, and the block of a process with
a request in flight keeps the duration that was sent. -/
structure EstadoIo (dispositivo : ℤ → Option (List Byte)) (k : Kernel) : Prop where
  bloques : ∀ e, ∀ p ∈ k.colas e, ∃ b, k.pcbs p = some b ∧ b.pid = p ∧ b.estado = e
  colas : ∀ e, (k.colas e).Nodup
  grupos : Registrados k.dispositivosIo k.totalGrupos
  pedidos : ∀ g ∈ k.dispositivosIo, ∀ p, (pedidosDe g).count p =
    if BloqueadoEn dispositivo k g.nombreDispositivo p then 1 else 0
  vuelos : ∀ g ∈ k.dispositivosIo, ∀ x ∈ g.instancias, x.ocupado = true →
    ∃ b, k.pcbs x.pidEnEjecucion = some b ∧
      ultimoPedido k x = some ⟨x.pidEnEjecucion, b.tiempoBloqueoIo⟩

/-- The group that is left, with the request in flight ahead of those that waited. -/
def sinInstancia (k : Kernel) (g : GrupoIo) (x : Instancia) : GrupoIo :=
  { g with
    instancias := g.instancias.filter fun y => y.socketFd ≠ x.socketFd
    colaEsperaCompartida := enVuelo k x ++ g.colaEsperaCompartida }

end Definiciones

section Estado

variable {e : Estado} {p : ℤ}

theorem EstadoIo.vivas (h : EstadoIo dispositivo k) : Vivas k := by
  intro e p hp
  obtain ⟨b, hb, -, -⟩ := h.bloques e p hp
  exact Option.isSome_iff_exists.mpr ⟨b, hb⟩

theorem EstadoIo.estado (h : EstadoIo dispositivo k) (hp : p ∈ k.colas e) :
    estadoDe k p = some e := by
  obtain ⟨b, hb, -, hestado⟩ := h.bloques e p hp
  rw [estadoDe, hb, Option.map_some, hestado]

theorem EstadoIo.unica {e' : Estado} (h : EstadoIo dispositivo k) (hp : p ∈ k.colas e)
    (hp' : p ∈ k.colas e') : e = e' := by
  have hestado := h.estado hp
  rw [h.estado hp'] at hestado
  exact (Option.some.inj hestado).symm

theorem EstadoIo.pedido_iff (h : EstadoIo dispositivo k) (hg : g ∈ k.dispositivosIo) :
    p ∈ pedidosDe g ↔ BloqueadoEn dispositivo k g.nombreDispositivo p := by
  rw [← List.count_pos_iff, h.pedidos g hg]
  split
  · next hen => exact iff_of_true Nat.one_pos hen
  · next hno => exact iff_of_false (Nat.lt_irrefl 0) hno

theorem EstadoIo.nodup (h : EstadoIo dispositivo k) (hg : g ∈ k.dispositivosIo) :
    (pedidosDe g).Nodup := by
  apply List.nodup_iff_count_le_one.mpr
  intro p
  rw [h.pedidos g hg]
  split
  · exact Nat.le_refl 1
  · exact Nat.zero_le 1

/-- A process that waits is in one of the two queues. -/
theorem BloqueadoEn.cola {nombre : List Byte} (h : BloqueadoEn dispositivo k nombre p) :
    ∃ e, (e = .blocked ∨ e = .suspendedBlocked) ∧ p ∈ k.colas e := by
  rcases h.2 with hp | hp
  · exact ⟨.blocked, Or.inl rfl, hp⟩
  · exact ⟨.suspendedBlocked, Or.inr rfl, hp⟩

theorem EstadoIo.instancia (h : EstadoIo dispositivo k) (hg : g ∈ k.dispositivosIo)
    (hx : x ∈ g.instancias) :
    buscarGrupo k g.nombreDispositivo = some g ∧
      (g.instancias.find? fun y => y.socketFd = x.socketFd) = some x :=
  ⟨find_unico h.grupos.nombres hg, find_unico (h.grupos.nodup hg) hx⟩

/-- The request in flight goes back to the head of the queue. -/
theorem reencolar_eq (h : EstadoIo dispositivo k) (hg : g ∈ k.dispositivosIo)
    (hx : x ∈ g.instancias) :
    reencolar k g x =
      some { g with colaEsperaCompartida := enVuelo k x ++ g.colaEsperaCompartida } := by
  rw [reencolar, enVuelo]
  by_cases hocupado : x.ocupado = true
  · rw [if_pos hocupado, if_pos hocupado]
    have hpedido : x.pidEnEjecucion ∈ pedidosDe g := by
      apply List.mem_append_left
      apply List.mem_flatMap.mpr ⟨x, hx, _⟩
      rw [pedido, if_pos hocupado]
      exact List.mem_cons_self
    obtain ⟨e, he, hcola⟩ := ((h.pedido_iff hg).mp hpedido).cola
    obtain ⟨b, hb, hpid, -⟩ := h.bloques e _ hcola
    obtain ⟨b', hb', hultimo⟩ := h.vuelos g hg x hx hocupado
    cases hb.symm.trans hb'
    rw [buscar_espera h.vivas he hcola, hultimo]
    simp only [hb, Option.map_some, hpid]
    rfl
  · rw [if_neg hocupado, if_neg hocupado]
    rfl

/-- The handler up to the processes that are left to finalise. -/
theorem desconexion_eq (h : EstadoIo dispositivo k) (hg : g ∈ k.dispositivosIo)
    (hx : x ∈ g.instancias) :
    manejarDesconexionIo k g.nombreDispositivo x.socketFd =
      if (sinInstancia k g x).instancias.isEmpty then
        let r := vaciarEspera (sinInstancia k g x).colaEsperaCompartida k
        ({ r.1 with dispositivosIo := r.1.dispositivosIo.filter fun h => h.id ≠ g.id }, r.2)
      else (guardarGrupo k (despacharIoSiEsPosible (sinInstancia k g x)), []) := by
  obtain ⟨hgrupo, hinstancia⟩ := h.instancia hg hx
  rw [manejarDesconexionIo, hgrupo]
  dsimp only
  rw [hinstancia]
  dsimp only
  rw [reencolar_eq h hg hx]
  rfl

end Estado

section Espera

variable {sols : List Solicitud} {p : ℤ}

/-- The queues without some processes. -/
def sinProcesos (k : Kernel) (ps : List ℤ) : Kernel :=
  { k with colas := fun e => (k.colas e).filter fun p => p ∉ ps }

/-- A process that is in its queue only leaves all of them when it leaves it. -/
theorem quitar_eq {e : Estado} (hcolas : (k.colas e).Nodup)
    (hotras : ∀ e', e' ≠ e → p ∉ k.colas e') : k.quitar e p = sinProcesos k [p] := by
  have hcola : ∀ e', Function.update k.colas e ((k.colas e).erase p) e' =
      (k.colas e').filter fun q => q ∉ [p] := by
    intro e'
    by_cases he : e' = e
    · subst he
      rw [Function.update_self, hcolas.erase_eq_filter]
      apply List.filter_congr
      intro q _
      by_cases hq : q = p <;> simp [hq]
    · rw [Function.update_of_ne he, List.filter_eq_self.mpr]
      intro q hq
      have hne : q ≠ p := by
        rintro rfl
        exact hotras e' he hq
      simpa using hne
  rw [Kernel.quitar, funext hcola]
  rfl

theorem sinProcesos_cons (k : Kernel) (p : ℤ) (ps : List ℤ) :
    sinProcesos (sinProcesos k [p]) ps = sinProcesos k (p :: ps) := by
  rw [sinProcesos, sinProcesos, sinProcesos]
  congr 1
  funext e
  rw [List.filter_filter]
  apply List.filter_congr
  intro q _
  simp only [List.mem_cons, List.not_mem_nil, or_false, not_or, Bool.decide_and, Bool.and_comm]

/-- The loop that empties the queue: every process that it meets leaves its list. -/
theorem vaciar_eq (hbloques : ∀ e, ∀ p ∈ k.colas e, ∃ b, k.pcbs p = some b ∧ b.estado = e)
    (hcolas : ∀ e, (k.colas e).Nodup)
    (hesperan : ∀ sol ∈ sols, ∃ e, (e = .blocked ∨ e = .suspendedBlocked) ∧
      sol.pid ∈ k.colas e) (hnodup : (sols.map Solicitud.pid).Nodup) :
    vaciarEspera sols k = (sinProcesos k (sols.map Solicitud.pid), sols.map Solicitud.pid) := by
  induction sols generalizing k with
  | nil =>
    have hnada : sinProcesos k [] = k := by
      rw [sinProcesos]
      simp
    rw [vaciarEspera, List.map_nil, hnada]
  | cons sol sols ih =>
    obtain ⟨e, he, hmem⟩ := hesperan sol List.mem_cons_self
    obtain ⟨b, hb, hestado⟩ := hbloques e sol.pid hmem
    rw [List.map_cons, List.nodup_cons] at hnodup
    have hvivas : Vivas k := by
      intro e' p hp
      obtain ⟨b', hb', -⟩ := hbloques e' p hp
      exact Option.isSome_iff_exists.mpr ⟨b', hb'⟩
    have hotras : ∀ e', e' ≠ e → sol.pid ∉ k.colas e' := by
      intro e' hne hmem'
      obtain ⟨b', hb', hestado'⟩ := hbloques e' sol.pid hmem'
      cases hb.symm.trans hb'
      exact hne (hestado'.symm.trans hestado)
    have hest : estadoDe k sol.pid = some e := by
      rw [estadoDe, hb, Option.map_some, hestado]
    have hresto : vaciarEspera sols (sinProcesos k [sol.pid]) =
        (sinProcesos (sinProcesos k [sol.pid]) (sols.map Solicitud.pid),
          sols.map Solicitud.pid) := by
      apply ih
      · intro e' p hp
        exact hbloques e' p (List.mem_of_mem_filter hp)
      · intro e'
        exact (hcolas e').filter _
      · intro x hx
        obtain ⟨e', he', hmem'⟩ := hesperan x (List.mem_cons_of_mem _ hx)
        refine ⟨e', he', List.mem_filter.mpr ⟨hmem', ?_⟩⟩
        have hne : x.pid ≠ sol.pid := by
          intro heq
          exact hnodup.1 (List.mem_map.mpr ⟨x, hx, heq⟩)
        simpa using hne
      · exact hnodup.2
    rw [vaciarEspera, buscar_espera hvivas he hmem]
    dsimp only
    rw [quitarBloqueado_de hest he, quitar_eq (hcolas e) hotras, hresto, sinProcesos_cons,
      List.map_cons]

/-- The registry without a group. -/
def sinGrupo (k : Kernel) (g : GrupoIo) : Kernel :=
  { k with dispositivosIo := k.dispositivosIo.filter fun h => h.id ≠ g.id }

/-- The processes at the end of `cola_exit`, in state EXIT. -/
def conFinalizados (k : Kernel) (ps : List ℤ) : Kernel :=
  { k with
    colas := Function.update k.colas .exit (k.colas .exit ++ ps)
    pcbs := fun p => if p ∈ ps then (k.pcbs p).map (Pcb.cambiarEstado k.reloj .exit) else k.pcbs p
    semProcesosEnExit := k.semProcesosEnExit + ps.length }

theorem colas_conFinalizados (k : Kernel) (ps : List ℤ) (e : Estado) :
    (conFinalizados k ps).colas e = if e = .exit then k.colas .exit ++ ps else k.colas e := by
  by_cases he : e = .exit
  · subst he
    rw [if_pos rfl]
    exact Function.update_self Estado.exit (k.colas .exit ++ ps) k.colas
  · rw [if_neg he]
    exact Function.update_of_ne he (k.colas .exit ++ ps) k.colas

theorem finalizar_eq {ps : List ℤ} (hvivos : ∀ p ∈ ps, (k.pcbs p).isSome = true)
    (hnodup : ps.Nodup) : ps.foldl finalizarProceso k = conFinalizados k ps := by
  induction ps generalizing k with
  | nil =>
    rw [conFinalizados]
    simp
  | cons p ps ih =>
    rw [List.nodup_cons] at hnodup
    have hvivo : (k.pcbs p).isNone = false := by
      rw [Option.isNone_eq_false_iff]
      exact hvivos p List.mem_cons_self
    have hotro : ∀ q ∈ ps, (finalizarProceso k p).pcbs q = k.pcbs q := by
      intro q hq
      apply Function.update_of_ne
      rintro rfl
      exact hnodup.1 hq
    have hresto : ps.foldl finalizarProceso (finalizarProceso k p) =
        conFinalizados (finalizarProceso k p) ps := by
      apply ih _ hnodup.2
      intro q hq
      rw [hotro q hq]
      exact hvivos q (List.mem_cons_of_mem _ hq)
    rw [List.foldl_cons, hresto]
    simp only [conFinalizados, finalizarProceso, agregarAExit, Kernel.agregar, Kernel.postExit,
      Kernel.cambiarEstado, Kernel.conPcb, hvivo, Bool.or_false, Function.update_self,
      Function.update_idem, List.append_assoc, List.singleton_append, List.length_cons]
    congr 1
    · funext q
      by_cases hq : q = p
      · subst hq
        rw [if_neg hnodup.1, if_pos List.mem_cons_self, Function.update_self]
      · rw [Function.update_of_ne hq]
        simp only [List.mem_cons, hq, false_or]
    · omega

end Espera

section Casos

variable {ps : List ℤ}

/-- Other instances are left: nothing but the group of the device changes. It is dispatched
without the instance, with the request that was in flight ahead of those that waited. -/
structure Continua (k k' : Kernel) (g : GrupoIo) (x : Instancia) : Prop where
  nadieTermina : k'.colas = k.colas ∧ k'.pcbs = k.pcbs ∧
    k'.semProcesosEnExit = k.semProcesosEnExit
  despacho : ∃ turnos r,
    Despacho (sinInstancia k g x) (enVuelo k x ++ g.colaEsperaCompartida) turnos r ∧
      (∀ sol ∈ enVuelo k x, r.2 = [] ∨ r.2.head?.map Prod.snd = some sol) ∧
      k' = guardarGrupo k r

/-- No instance is left: the processes blocked on the device end, and nothing else changes. -/
structure Finaliza (dispositivo : ℤ → Option (List Byte)) (k k' : Kernel) (g : GrupoIo)
    (ps : List ℤ) : Prop where
  quienes : ∀ p, p ∈ ps ↔ BloqueadoEn dispositivo k g.nombreDispositivo p
  unaVez : ps.Nodup
  entran : k'.colas .exit = k.colas .exit ++ ps
  salen : ∀ e, e = .blocked ∨ e = .suspendedBlocked →
    k'.colas e = (k.colas e).filter fun p => p ∉ ps
  otrasColas : ∀ e, e ≠ .blocked → e ≠ .suspendedBlocked → e ≠ .exit → k'.colas e = k.colas e
  estados : ∀ p ∈ ps, ∃ b, k.pcbs p = some b ∧ k'.pcbs p = some (b.cambiarEstado k.reloj .exit)
  otros : ∀ p, p ∉ ps → k'.pcbs p = k.pcbs p
  sinGrupo : buscarGrupo k' g.nombreDispositivo = none
  resto : k' = { k with
    colas := k'.colas
    pcbs := k'.pcbs
    semProcesosEnExit := k.semProcesosEnExit + ps.length
    dispositivosIo := k.dispositivosIo.filter fun h => h.id ≠ g.id }

theorem enVuelo_eq {sol : Solicitud} (h : sol ∈ enVuelo k x) : enVuelo k x = [sol] := by
  unfold enVuelo at h ⊢
  split at h
  · next hocupado =>
      rw [if_pos hocupado, Option.mem_toList.mp h]
      rfl
  · cases h

theorem continua (h : EstadoIo dispositivo k) (hg : g ∈ k.dispositivosIo) (hx : x ∈ g.instancias)
    (hquedan : (sinInstancia k g x).instancias ≠ []) :
    Continua k (desconectarIo k g.nombreDispositivo x.socketFd) g x := by
  have heq : desconectarIo k g.nombreDispositivo x.socketFd =
      guardarGrupo k (despacharIoSiEsPosible (sinInstancia k g x)) := by
    rw [desconectarIo, desconexion_eq h hg hx, if_neg (mt List.isEmpty_iff.mp hquedan)]
    rfl
  obtain ⟨turnos, hdespacho⟩ :=
    despacho_cola (sinInstancia k g x) (sinInstancia k g x).colaEsperaCompartida
  constructor
  · rw [heq]
    exact ⟨rfl, rfl, rfl⟩
  · refine ⟨turnos, _, hdespacho, fun sol hsol => ?_, heq⟩
    have hcola : (sinInstancia k g x).colaEsperaCompartida =
        enVuelo k x ++ g.colaEsperaCompartida := rfl
    have hpedidos := hdespacho.pedidos
    cases turnos with
    | nil =>
      left
      exact List.map_eq_nil_iff.mp hpedidos
    | cons i turnos =>
      right
      rw [← List.head?_map, hpedidos, hcola, enVuelo_eq hsol]
      rfl

theorem instancia_unica (h : EstadoIo dispositivo k) (hg : g ∈ k.dispositivosIo)
    (hx : x ∈ g.instancias) (hunica : ∀ y ∈ g.instancias, y = x) : g.instancias = [x] := by
  have hrep : g.instancias = List.replicate g.instancias.length x :=
    List.eq_replicate_of_mem hunica
  have hnodup : g.instancias.Nodup := (h.grupos.nodup hg).of_map _
  have hpos : 0 < g.instancias.length := List.length_pos_of_mem hx
  rw [hrep, List.nodup_replicate] at hnodup
  have huno : g.instancias.length = 1 := by omega
  rw [hrep, huno]
  rfl

/-- The requests of a device with one instance are the ones that it leaves. -/
theorem pedidos_unica (h : EstadoIo dispositivo k) (hg : g ∈ k.dispositivosIo)
    (hx : g.instancias = [x]) :
    ((sinInstancia k g x).colaEsperaCompartida.map Solicitud.pid) = pedidosDe g := by
  have hvuelo : (enVuelo k x).map Solicitud.pid = pedido x := by
    unfold enVuelo pedido
    split
    · next hocupado =>
        obtain ⟨b, -, hultimo⟩ := h.vuelos g hg x (by simp [hx]) hocupado
        rw [hultimo]
        rfl
    · rfl
  rw [sinInstancia, List.map_append, hvuelo, pedidosDe, hx, List.flatMap_singleton]

theorem finaliza (h : EstadoIo dispositivo k) (hg : g ∈ k.dispositivosIo)
    (hx : g.instancias = [x]) :
    Finaliza dispositivo k (desconectarIo k g.nombreDispositivo x.socketFd) g (pedidosDe g) := by
  have hmem : x ∈ g.instancias := by simp [hx]
  have hnada : (sinInstancia k g x).instancias = [] := by simp [sinInstancia, hx]
  have hcola := pedidos_unica h hg hx
  have hbloques : ∀ e, ∀ p ∈ k.colas e, ∃ b, k.pcbs p = some b ∧ b.estado = e := by
    intro e p hp
    obtain ⟨b, hb, -, hestado⟩ := h.bloques e p hp
    exact ⟨b, hb, hestado⟩
  have hvacia := @vaciar_eq k (sinInstancia k g x).colaEsperaCompartida hbloques h.colas
    (fun sol hsol => by
      apply BloqueadoEn.cola
      apply (h.pedido_iff hg).mp
      rw [← hcola]
      exact List.mem_map_of_mem hsol)
    (hcola ▸ h.nodup hg)
  rw [hcola] at hvacia
  have heq : desconectarIo k g.nombreDispositivo x.socketFd =
      conFinalizados (sinGrupo (sinProcesos k (pedidosDe g)) g) (pedidosDe g) := by
    rw [desconectarIo, desconexion_eq h hg hmem, if_pos (List.isEmpty_iff.mpr hnada)]
    dsimp only
    rw [hvacia]
    apply finalizar_eq
    · intro p hp
      obtain ⟨e, -, hcola⟩ := ((h.pedido_iff hg).mp hp).cola
      exact h.vivas e p hcola
    · exact h.nodup hg
  have hajena : ∀ e, e ≠ .blocked → e ≠ .suspendedBlocked →
      ((k.colas e).filter fun p => p ∉ pedidosDe g) = k.colas e := by
    intro e hblocked hsuspended
    apply List.filter_eq_self.mpr
    intro p hp
    apply decide_eq_true
    intro hpedido
    obtain ⟨e', he', hp'⟩ := ((h.pedido_iff hg).mp hpedido).cola
    rcases he' with rfl | rfl
    · exact hblocked (h.unica hp hp')
    · exact hsuspended (h.unica hp hp')
  rw [heq]
  constructor
  · exact fun p => h.pedido_iff hg
  · exact h.nodup hg
  · rw [colas_conFinalizados, if_pos rfl]
    exact congrArg (· ++ pedidosDe g) (hajena .exit (by decide) (by decide))
  · intro e he
    have hne : e ≠ .exit := by
      rintro rfl
      rcases he with he | he <;> cases he
    rw [colas_conFinalizados, if_neg hne]
    rfl
  · intro e hblocked hsuspended hexit
    rw [colas_conFinalizados, if_neg hexit]
    exact hajena e hblocked hsuspended
  · intro p hp
    obtain ⟨e, -, hcola⟩ := ((h.pedido_iff hg).mp hp).cola
    obtain ⟨b, hb, -, -⟩ := h.bloques e p hcola
    refine ⟨b, hb, (if_pos hp).trans ?_⟩
    exact congrArg (Option.map (Pcb.cambiarEstado k.reloj .exit)) hb
  · intro p hp
    exact if_neg hp
  · apply List.find?_eq_none.mpr
    intro h' hmem' hnombre
    obtain ⟨hregistrado, hid⟩ := List.mem_filter.mp hmem'
    have hmismo := List.inj_on_of_nodup_map h.grupos.nombres hregistrado hg
      (of_decide_eq_true hnombre)
    exact of_decide_eq_true hid (congrArg GrupoIo.id hmismo)
  · rfl

/-- The loss of an instance. While others of its device are left nobody ends and the request in
flight is the next one served; with the last one, exactly the processes blocked on the device end,
each once. -/
theorem desconexion_exacta (h : EstadoIo dispositivo k) (hg : g ∈ k.dispositivosIo)
    (hx : x ∈ g.instancias) :
    ((∃ y ∈ g.instancias, y ≠ x) →
      Continua k (desconectarIo k g.nombreDispositivo x.socketFd) g x) ∧
    ((∀ y ∈ g.instancias, y = x) → Finaliza dispositivo k
      (desconectarIo k g.nombreDispositivo x.socketFd) g (pedidosDe g)) := by
  constructor
  · rintro ⟨y, hy, hne⟩
    apply continua h hg hx
    have hfd : y.socketFd ≠ x.socketFd := by
      intro hfd
      exact hne (List.inj_on_of_nodup_map (h.grupos.nodup hg) hy hx hfd)
    exact List.ne_nil_of_mem (List.mem_filter.mpr ⟨hy, decide_eq_true hfd⟩)
  · intro hunica
    exact finaliza h hg (instancia_unica h hg hx hunica)

end Casos

section Ejemplo

def bloqueEjemplo (pid : ℤ) (estado : Estado) (tiempo : ℤ) : Pcb :=
  ⟨pid, 0, 10, estado, [65], 100, 0, 0, {}, 0, tiempo⟩

/-- Processes 0 and 1 on a device with one instance, and 2, 3 and 4 on one with two. -/
def kernelEjemplo : Kernel :=
  { inicial with
    colas := fun e =>
      match e with
      | .blocked => [0, 2, 3]
      | .suspendedBlocked => [1, 4]
      | _ => []
    pcbs := fun p =>
      if p = 0 then some (bloqueEjemplo 0 .blocked 10)
      else if p = 1 then some (bloqueEjemplo 1 .suspendedBlocked 20)
      else if p = 2 then some (bloqueEjemplo 2 .blocked 30)
      else if p = 3 then some (bloqueEjemplo 3 .blocked 40)
      else if p = 4 then some (bloqueEjemplo 4 .suspendedBlocked 50)
      else none
    ultimoPid := 5
    dispositivosIo :=
      [⟨0, [68], [⟨5, true, 0⟩], [⟨1, 20⟩], 0⟩,
        ⟨1, [69], [⟨6, true, 2⟩, ⟨7, true, 3⟩], [⟨4, 50⟩], 1⟩]
    totalGrupos := 2
    enviados := fun a =>
      match a with
      | .io 5 => [.handshakeOk, .io [68] ⟨0, 10⟩]
      | .io 6 => [.handshakeOk, .io [69] ⟨2, 30⟩]
      | .io 7 => [.handshakeOk, .io [69] ⟨3, 40⟩]
      | _ => [] }

def dispositivoEjemplo (p : ℤ) : Option (List Byte) :=
  if p = 0 ∨ p = 1 then some [68] else if p = 2 ∨ p = 3 ∨ p = 4 then some [69] else none

theorem estadoIo_ejemplo : EstadoIo dispositivoEjemplo kernelEjemplo := by
  constructor
  · intro e p hp
    cases e with
    | blocked =>
      have hp : p ∈ [0, 2, 3] := hp
      simp only [List.mem_cons, List.not_mem_nil, or_false] at hp
      rcases hp with rfl | rfl | rfl <;> exact ⟨_, rfl, rfl, rfl⟩
    | suspendedBlocked =>
      have hp : p ∈ [1, 4] := hp
      simp only [List.mem_cons, List.not_mem_nil, or_false] at hp
      rcases hp with rfl | rfl <;> exact ⟨_, rfl, rfl, rfl⟩
    | _ => cases hp
  · intro e
    cases e <;> decide
  · constructor
    · decide
    · intro g hg
      revert g
      decide
    · decide
    · decide
  · intro g hg p
    have hg : g ∈ [_, _] := hg
    simp only [List.mem_cons, List.not_mem_nil, or_false] at hg
    by_cases hp : p ∈ [0, 1, 2, 3, 4]
    · simp only [List.mem_cons, List.not_mem_nil, or_false] at hp
      rcases hg with rfl | rfl <;> rcases hp with rfl | rfl | rfl | rfl | rfl <;> decide
    · simp only [List.mem_cons, List.not_mem_nil, or_false, not_or] at hp
      have hlibre : ¬ BloqueadoEn dispositivoEjemplo kernelEjemplo g.nombreDispositivo p := by
        rintro ⟨hdispositivo, -⟩
        simp [dispositivoEjemplo, hp] at hdispositivo
      rw [if_neg hlibre]
      apply List.count_eq_zero.mpr
      rcases hg with rfl | rfl <;> simp [pedidosDe, pedido, hp]
  · intro g hg x hx hocupado
    have hg : g ∈ [_, _] := hg
    simp only [List.mem_cons, List.not_mem_nil, or_false] at hg
    rcases hg with rfl | rfl
    · simp only [List.mem_cons, List.not_mem_nil, or_false] at hx
      subst hx
      exact ⟨_, rfl, rfl⟩
    · simp only [List.mem_cons, List.not_mem_nil, or_false] at hx
      rcases hx with rfl | rfl <;> exact ⟨_, rfl, rfl⟩

/-- The first device loses its only instance, and the other one of two. -/
theorem desconexion_exacta_ejemplo :
    (desconectarIo kernelEjemplo [68] 5).colas .exit = [0, 1] ∧
      (desconectarIo kernelEjemplo [69] 6).colas .exit = [] := by
  have hD : (⟨0, [68], [⟨5, true, 0⟩], [⟨1, 20⟩], 0⟩ : GrupoIo) ∈ kernelEjemplo.dispositivosIo :=
    List.mem_cons_self
  have hE : (⟨1, [69], [⟨6, true, 2⟩, ⟨7, true, 3⟩], [⟨4, 50⟩], 1⟩ : GrupoIo) ∈
      kernelEjemplo.dispositivosIo := List.mem_cons_of_mem _ List.mem_cons_self
  constructor
  · have hfinaliza := (desconexion_exacta estadoIo_ejemplo hD (x := ⟨5, true, 0⟩)
      List.mem_cons_self).2 (by decide)
    exact hfinaliza.entran
  · have hcontinua := (desconexion_exacta estadoIo_ejemplo hE (x := ⟨6, true, 2⟩)
      List.mem_cons_self).1 ⟨⟨7, true, 3⟩, by decide, by decide⟩
    exact congrFun hcontinua.nadieTermina.1 .exit

end Ejemplo

end KernelDesconexion
