import Tpssoo.KernelSaludos
import Mathlib.Data.List.Nodup
import Mathlib.Data.List.Flatten

/-!
# The requests of a device

A request of a group is in its queue or in flight at one of its instances. The dispatcher
moves requests from the queue to idle instances, sends each where it moves it, and neither
loses one nor makes one.
-/
namespace KernelDispositivos

open EnterosC Protocolo KernelEstado KernelFunciones KernelHilos KernelSaludos

/-- The process whose request is in flight at an instance. -/
def pedido (x : Instancia) : List ℤ := if x.ocupado then [x.pidEnEjecucion] else []

/-- The processes with a request in a group, once for each. -/
def pedidosDe (g : GrupoIo) : List ℤ :=
  g.instancias.flatMap pedido ++ g.colaEsperaCompartida.map Solicitud.pid

def pedidosIo (gs : List GrupoIo) : List ℤ := gs.flatMap pedidosDe

/-- The requests among the packets of a connection. -/
def solicitudes (ms : List Mensaje) : List Solicitud :=
  ms.filterMap fun m => match m with
    | .io _ sol => some sol
    | _ => none

/-- The instance has answered `t` of the requests sent to it, and what is left is the one that
the kernel takes to be in flight there. -/
structure EnCurso (ms : List Mensaje) (t : ℕ) (x : Instancia) : Prop where
  enviadas : t ≤ (solicitudes ms).length
  resto : ((solicitudes ms).drop t).map Solicitud.pid = pedido x

/-- The instance of a group at a connection agrees with what was sent there. -/
def Cursa (ms : List Mensaje) (t fd : ℕ) (g : GrupoIo) : Prop :=
  ∀ x ∈ g.instancias, x.socketFd = fd → EnCurso ms t x

section Listas

variable {α β : Type*} {f : α → List β}

theorem flatMap_set {xs : List α} {i : ℕ} {x : α} (y : α) (hx : xs[i]? = some x) (hf : f x = []) :
    ((xs.set i y).flatMap f).Perm (f y ++ xs.flatMap f) := by
  induction xs generalizing i with
  | nil => cases hx
  | cons z zs ih =>
    cases i with
    | zero =>
      cases Option.some.inj hx
      rw [List.set_cons_zero, List.flatMap_cons, List.flatMap_cons, hf, List.nil_append]
    | succ i =>
      rw [List.set_cons_succ, List.flatMap_cons, List.flatMap_cons]
      exact ((ih hx).append_left (f z)).trans (List.perm_append_comm_assoc _ _ _)

end Listas

section Envios

variable {ms : List Mensaje} {t fd : ℕ} {x : Instancia} {nombre : List Byte} {sol : Solicitud}

theorem solicitudes_append (ms ms' : List Mensaje) :
    solicitudes (ms ++ ms') = solicitudes ms ++ solicitudes ms' := List.filterMap_append

theorem solicitudes_io : solicitudes [.io nombre sol] = [sol] := rfl

/-- A request is sent to an idle instance. -/
theorem EnCurso.envia (h : EnCurso ms t x) (hlibre : x.ocupado = false) :
    EnCurso (ms ++ [.io nombre sol]) t { x with ocupado := true, pidEnEjecucion := sol.pid } := by
  have hnada : ((solicitudes ms).drop t).map Solicitud.pid = [] := by
    rw [h.resto, pedido, hlibre]
    rfl
  have hdrop := List.map_eq_nil_iff.mp hnada
  constructor
  · rw [solicitudes_append, List.length_append]
    exact h.enviadas.trans (Nat.le_add_right _ _)
  · rw [solicitudes_append, List.drop_append_of_le_length h.enviadas, hdrop]
    rfl

/-- The instance answers the request in flight. -/
theorem EnCurso.termina (h : EnCurso ms t x) (hocupado : x.ocupado = true) :
    EnCurso ms (t + 1) { x with ocupado := false } := by
  have huno : ((solicitudes ms).drop t).map Solicitud.pid = [x.pidEnEjecucion] := by
    rw [h.resto, pedido, hocupado]
    rfl
  have hlargo := congrArg List.length huno
  rw [List.length_map, List.length_drop, List.length_singleton] at hlargo
  constructor
  · omega
  · rw [List.drop_of_length_le (by omega)]
    rfl

theorem instancia_libre {g : GrupoIo} {i : ℕ} (h : instanciaLibre g = some i)
    (hx : g.instancias[i]? = some x) : x.ocupado = false := by
  have hlibre := List.find?_some h
  rw [hx] at hlibre
  exact (Bool.not_eq_true' _).mp hlibre

end Envios

section Despacho

variable {g : GrupoIo}

/-- The dispatcher neither loses a request nor makes one. -/
theorem pedidos_despacharCola (q : List Solicitud) :
    (pedidosDe (despacharCola g q).1).Perm (g.instancias.flatMap pedido ++
      q.map Solicitud.pid) := by
  induction q generalizing g with
  | nil => exact .refl _
  | cons sol q ih =>
    rw [despacharCola]
    split
    · exact .refl _
    next i hi =>
    split
    · exact .refl _
    next x hx =>
    have hlibre : pedido x = [] := by
      rw [pedido, instancia_libre hi hx]
      rfl
    have hset := flatMap_set { x with ocupado := true, pidEnEjecucion := sol.pid } hx hlibre
    refine ih.trans ((hset.append_right _).trans ?_)
    exact List.perm_middle.symm

theorem pedidos_despachar : (pedidosDe (despacharIoSiEsPosible g).1).Perm (pedidosDe g) :=
  pedidos_despacharCola _

theorem datos_despacharCola (q : List Solicitud) : (despacharCola g q).1.id = g.id ∧
    (despacharCola g q).1.nombreDispositivo = g.nombreDispositivo := by
  induction q generalizing g with
  | nil => exact ⟨rfl, rfl⟩
  | cons sol q ih =>
    rw [despacharCola]
    split
    · exact ⟨rfl, rfl⟩
    split
    · exact ⟨rfl, rfl⟩
    · exact ih

theorem enviarPedidos_ajenos (nombre : List Byte) {xs : List (ℕ × Solicitud)}
    {e : Canal → List Mensaje} {fd : ℕ} (h : ∀ x ∈ xs, x.1 ≠ fd) :
    xs.foldl (enviarPedido nombre) e (.io fd) = e (.io fd) := by
  induction xs generalizing e with
  | nil => rfl
  | cons x xs ih =>
    rw [List.foldl_cons, ih fun y hy => h y (List.mem_cons_of_mem _ hy), enviarPedido]
    refine Function.update_of_ne ?_ _ _
    intro heq
    exact h x List.mem_cons_self (Canal.io.inj heq).symm

/-- Only requests are sent. -/
theorem enviarPedidos_io (nombre : List Byte) (xs : List (ℕ × Solicitud)) (e : Canal → List Mensaje)
    (fd : ℕ) : ∃ sols : List Solicitud,
      xs.foldl (enviarPedido nombre) e (.io fd) = e (.io fd) ++ sols.map (.io nombre) := by
  induction xs generalizing e with
  | nil => exact ⟨[], (List.append_nil _).symm⟩
  | cons x xs ih =>
    rw [List.foldl_cons]
    obtain ⟨sols, h⟩ := ih (enviarPedido nombre e x)
    by_cases hfd : x.1 = fd
    · subst hfd
      refine ⟨x.2 :: sols, ?_⟩
      rw [h, enviarPedido, Function.update_self, List.append_assoc]
      rfl
    · refine ⟨sols, ?_⟩
      rw [h, enviarPedido, Function.update_of_ne]
      intro heq
      exact hfd (Canal.io.inj heq).symm

/-- What the dispatcher sends agrees with what it marks. -/
theorem cursa_despacharCola {e : Canal → List Mensaje} {t fd : ℕ} (q : List Solicitud)
    (hfds : (fds g).Nodup) (h : Cursa (e (.io fd)) t fd g) :
    Cursa ((despacharCola g q).2.foldl (enviarPedido (despacharCola g q).1.nombreDispositivo) e
      (.io fd)) t fd (despacharCola g q).1 := by
  rw [(datos_despacharCola q).2]
  induction q generalizing g e with
  | nil => exact h
  | cons sol q ih =>
    rw [despacharCola]
    split
    · exact h
    next i hi =>
    split
    · exact h
    next x hx =>
    have hset : fds { g with
        instancias := g.instancias.set i { x with ocupado := true, pidEnEjecucion := sol.pid }
        ultimoDespachoIdx := i } = fds g := map_set_igual hx rfl
    refine ih (hset ▸ hfds) fun y hy hfd => ?_
    obtain ⟨hlt, -⟩ := List.getElem?_eq_some_iff.mp hx
    rw [enviarPedido]
    by_cases heq : x.socketFd = fd
    · -- no other instance has the connection
      subst heq
      have hy' := List.inj_on_of_nodup_map (Eq.mpr (congrArg List.Nodup hset) hfds) hy
          (List.mem_set hlt _) hfd
      rw [hy', Function.update_self]
      exact (h x (List.mem_of_getElem? hx) rfl).envia (instancia_libre hi hx)
    · rw [Function.update_of_ne fun heq' => heq (Canal.io.inj heq').symm]
      rcases List.mem_or_eq_of_mem_set hy with hy | rfl
      · exact h y hy hfd
      · exact absurd hfd heq

end Despacho

section Registro

variable {gs l r : List GrupoIo} {g g' : GrupoIo} {n fd : ℕ}

/-- The groups of the dictionary: a name, a block and a connection are of one of them. -/
structure Registrados (gs : List GrupoIo) (n : ℕ) : Prop where
  ids : (gs.map GrupoIo.id).Nodup
  menores : ∀ g ∈ gs, g.id < n
  nombres : (gs.map GrupoIo.nombreDispositivo).Nodup
  conexiones : (gs.flatMap fds).Nodup

theorem find_unico {α κ : Type*} [DecidableEq κ] {f : α → κ} {xs : List α} {x : α}
    (hnodup : (xs.map f).Nodup) (hx : x ∈ xs) : xs.find? (fun y => f y = f x) = some x := by
  cases h : xs.find? (fun y => f y = f x) with
  | none =>
    have hno := List.find?_eq_none.mp h x hx
    simp at hno
  | some y =>
    have hy := List.find?_some h
    rw [List.inj_on_of_nodup_map hnodup (List.mem_of_find?_eq_some h) hx (of_decide_eq_true hy)]

/-- A group is written over itself. -/
theorem reemplaza (hids : ((l ++ g :: r).map GrupoIo.id).Nodup) (hid : g'.id = g.id) :
    (l ++ g :: r).map (fun h => if h.id = g'.id then g' else h) = l ++ g' :: r := by
  rw [List.map_append, List.map_cons, List.nodup_middle, List.nodup_cons, ← List.map_append] at hids
  have hotro : ∀ h ∈ l ++ r, (if h.id = g'.id then g' else h) = h := fun h hh =>
    if_neg fun heq => hids.1 (List.mem_map.mpr ⟨h, hh, heq.trans hid⟩)
  rw [List.map_append, List.map_cons, if_pos hid.symm]
  congr 1
  · exact (List.map_congr_left fun h hh => hotro h (List.mem_append_left _ hh)).trans
      (List.map_id _)
  · congr 1
    exact (List.map_congr_left fun h hh => hotro h (List.mem_append_right _ hh)).trans
      (List.map_id _)

/-- A group is taken out. -/
theorem quita_grupo (hids : ((l ++ g :: r).map GrupoIo.id).Nodup) :
    (l ++ g :: r).filter (fun h => h.id ≠ g.id) = l ++ r := by
  rw [List.map_append, List.map_cons, List.nodup_middle, List.nodup_cons, ← List.map_append] at hids
  have hotro : ∀ h ∈ l ++ r, decide (h.id ≠ g.id) = true := fun h hh =>
    decide_eq_true fun heq => hids.1 (List.mem_map.mpr ⟨h, hh, heq⟩)
  rw [List.filter_append, List.filter_cons_of_neg (by simp),
    List.filter_eq_self.mpr fun h hh => hotro h (List.mem_append_left _ hh),
    List.filter_eq_self.mpr fun h hh => hotro h (List.mem_append_right _ hh)]

theorem Registrados.cambia (h : Registrados (l ++ g :: r) n) (hid : g'.id = g.id)
    (hnombre : g'.nombreDispositivo = g.nombreDispositivo) (hfds : (fds g').Sublist (fds g)) :
    Registrados (l ++ g' :: r) n := by
  constructor
  · have hids := h.ids
    rw [List.map_append, List.map_cons] at hids ⊢
    rwa [hid]
  · intro x hx
    rcases List.mem_append.mp hx with hx | hx
    · exact h.menores x (List.mem_append_left _ hx)
    rcases List.mem_cons.mp hx with rfl | hx
    · rw [hid]
      exact h.menores g (List.mem_append_right _ List.mem_cons_self)
    · exact h.menores x (List.mem_append_right _ (List.mem_cons_of_mem _ hx))
  · have hnombres := h.nombres
    rw [List.map_append, List.map_cons] at hnombres ⊢
    rwa [hnombre]
  · refine List.Nodup.sublist ?_ h.conexiones
    rw [List.flatMap_append, List.flatMap_append, List.flatMap_cons, List.flatMap_cons]
    exact (List.Sublist.refl _).append (hfds.append (List.Sublist.refl _))

theorem Registrados.sale (h : Registrados (l ++ g :: r) n) : Registrados (l ++ r) n := by
  have hsub : (l ++ r).Sublist (l ++ g :: r) := (List.Sublist.refl l).append
      (List.sublist_cons_self g r)
  exact ⟨h.ids.sublist (hsub.map _), fun x hx => h.menores x (hsub.subset hx),
    h.nombres.sublist (hsub.map _), h.conexiones.sublist (hsub.flatMap fds)⟩

/-- A device connects once more. -/
theorem Registrados.conecta (h : Registrados (l ++ g :: r) n) (hid : g'.id = g.id)
    (hnombre : g'.nombreDispositivo = g.nombreDispositivo) (hfds : fds g' = fds g ++ [fd])
    (hfd : fd ∉ (l ++ g :: r).flatMap fds) : Registrados (l ++ g' :: r) n := by
  have hcambia : Registrados (l ++ { g' with instancias := g.instancias } :: r) n :=
    h.cambia hid hnombre (.refl _)
  refine ⟨?_, fun x hx => ?_, ?_, ?_⟩
  · have hids := hcambia.ids
    rwa [List.map_append, List.map_cons] at hids ⊢
  · rcases List.mem_append.mp hx with hx | hx
    · exact h.menores x (List.mem_append_left _ hx)
    rcases List.mem_cons.mp hx with rfl | hx
    · rw [hid]
      exact h.menores g (List.mem_append_right _ List.mem_cons_self)
    · exact h.menores x (List.mem_append_right _ (List.mem_cons_of_mem _ hx))
  · have hnombres := hcambia.nombres
    rwa [List.map_append, List.map_cons] at hnombres ⊢
  · have hperm : ((l ++ g' :: r).flatMap fds).Perm (fd :: (l ++ g :: r).flatMap fds) := by
      rw [List.flatMap_append, List.flatMap_append, List.flatMap_cons, List.flatMap_cons, hfds,
        List.append_assoc, ← List.append_assoc, ← List.append_assoc (l.flatMap fds)]
      exact List.perm_middle
    exact hperm.nodup_iff.mpr (List.nodup_cons.mpr ⟨hfd, h.conexiones⟩)

/-- A device connects for the first time. -/
theorem Registrados.entra (h : Registrados gs n) (hid : g.id = n)
    (hnombre : ∀ h ∈ gs, h.nombreDispositivo ≠ g.nombreDispositivo) (hfds : fds g = [fd])
    (hfd : fd ∉ gs.flatMap fds) : Registrados (gs ++ [g]) (n + 1) := by
  constructor
  · rw [List.map_append, List.map_singleton, List.nodup_append_comm, List.singleton_append,
      List.nodup_cons]
    refine ⟨fun hmem => ?_, h.ids⟩
    obtain ⟨x, hx, heq⟩ := List.mem_map.mp hmem
    exact (h.menores x hx).ne (heq.trans hid)
  · intro x hx
    rcases List.mem_append.mp hx with hx | hx
    · exact (h.menores x hx).trans (Nat.lt_succ_self n)
    · rw [List.mem_singleton.mp hx, hid]
      exact Nat.lt_succ_self n
  · rw [List.map_append, List.map_singleton, List.nodup_append_comm, List.singleton_append,
      List.nodup_cons]
    refine ⟨fun hmem => ?_, h.nombres⟩
    obtain ⟨x, hx, heq⟩ := List.mem_map.mp hmem
    exact hnombre x hx heq
  · rw [List.flatMap_append, List.flatMap_singleton, hfds, List.nodup_append_comm,
      List.singleton_append, List.nodup_cons]
    exact ⟨hfd, h.conexiones⟩

theorem Registrados.ajena (h : Registrados (l ++ g :: r) n) (hfd : fd ∈ fds g) :
    fd ∉ (l ++ r).flatMap fds := by
  have hperm : ((l ++ g :: r).flatMap fds).Perm (fds g ++ (l ++ r).flatMap fds) := by
    rw [List.flatMap_append, List.flatMap_append, List.flatMap_cons]
    exact List.perm_append_comm_assoc _ _ _
  exact List.disjoint_of_nodup_append (hperm.nodup_iff.mp h.conexiones) hfd

/-- A connection is of one group. -/
theorem Registrados.grupo (h : Registrados gs n) (hg : g ∈ gs) (hg' : g' ∈ gs) (hfd : fd ∈ fds g)
    (hfd' : fd ∈ fds g') : g = g' := by
  obtain ⟨l, r, rfl⟩ := List.append_of_mem hg
  by_contra hne
  have hotro : g' ∈ l ++ r := by
    simp only [List.mem_append, List.mem_cons] at hg' ⊢
    tauto
  exact h.ajena hfd (List.mem_flatMap.mpr ⟨g', hotro, hfd'⟩)

theorem Registrados.nodup (h : Registrados gs n) (hg : g ∈ gs) : (fds g).Nodup :=
  (List.nodup_flatMap.mp h.conexiones).1 g hg

end Registro

section Cuentas

variable {l r : List GrupoIo} {g g' : GrupoIo} {p : ℤ}

theorem count_pedidos : (pedidosIo (l ++ g :: r)).count p =
    (pedidosIo (l ++ r)).count p + (pedidosDe g).count p := by
  simp only [pedidosIo, List.flatMap_append, List.flatMap_cons, List.count_append]
  omega

end Cuentas

end KernelDispositivos
