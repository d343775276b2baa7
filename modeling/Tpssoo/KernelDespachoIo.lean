import Tpssoo.KernelFunciones
import Tpssoo.TurnoCircular

/-!
# Dispatch of IO requests

`despachar_io_si_es_posible` as a round robin of the waiting requests over the idle instances of
a device, from the one after the last used.
-/
namespace KernelDespachoIo

open EnterosC KernelEstado KernelFunciones TurnoCircular

variable {g : GrupoIo} {q : List Solicitud} {turnos : List ℕ} {i : ℕ} {x : Instancia}
  {sol : Solicitud}

def estaLibre (g : GrupoIo) (i : ℕ) : Bool :=
  match g.instancias[i]? with
  | some x => !x.ocupado
  | none => false

/-- The positions of the idle instances. -/
def libres (g : GrupoIo) : Finset ℕ :=
  (Finset.range g.instancias.length).filter fun i => estaLibre g i = true

/-- The instance as the request leaves it. -/
def asignada (sol : Solicitud) (x : Instancia) : Instancia :=
  { x with ocupado := true, pidEnEjecucion := sol.pid }

/-- What the dispatch of the requests `q` leaves and sends, when they are given to the instances
at `turnos`. -/
structure Despacho (g : GrupoIo) (q : List Solicitud) (turnos : List ℕ)
    (r : GrupoIo × List (ℕ × Solicitud)) : Prop where
  cantidad : turnos.length = min q.length (libres g).card
  circular : Turnos g.instancias.length (libres g) g.ultimoDespachoIdx turnos
  pedidos : r.2.map Prod.snd = q.take turnos.length
  conexiones : r.2.map (fun e => some e.1) =
    turnos.map fun i => (g.instancias[i]?).map Instancia.socketFd
  cola : r.1.colaEsperaCompartida = q.drop turnos.length
  ocupadas : ∀ (j i : ℕ) (sol : Solicitud), turnos[j]? = some i → q[j]? = some sol →
      r.1.instancias[i]? =
    (g.instancias[i]?).map (asignada sol)
  ajenas : ∀ i, i ∉ turnos → r.1.instancias[i]? = g.instancias[i]?
  ultimo : r.1.ultimoDespachoIdx =
    (turnos.map (Nat.cast : ℕ → ℤ)).getLastD g.ultimoDespachoIdx
  datos : r.1.id = g.id ∧ r.1.nombreDispositivo = g.nombreDispositivo
  termina : r.1.colaEsperaCompartida = [] ∨ ∀ x ∈ r.1.instancias, x.ocupado = true

section Turno

theorem mem_libres : i ∈ libres g ↔ i < g.instancias.length ∧ estaLibre g i = true := by
  rw [libres, Finset.mem_filter, Finset.mem_range]

theorem libres_vacio (h : libres g = ∅) : ∀ x ∈ g.instancias, x.ocupado = true := by
  intro x hx
  obtain ⟨i, hi, rfl⟩ := List.mem_iff_getElem.mp hx
  have hno : i ∉ libres g := by
    rw [h]
    exact Finset.notMem_empty i
  rw [mem_libres, estaLibre, List.getElem?_eq_getElem hi] at hno
  by_contra hlibre
  exact hno ⟨hi, by simpa using hlibre⟩

/-- The group after a turn. -/
def conTurno (g : GrupoIo) (i : ℕ) (x : Instancia) (sol : Solicitud) : GrupoIo :=
  { g with
    instancias := g.instancias.set i (asignada sol x)
    ultimoDespachoIdx := i }

theorem libres_conTurno : libres (conTurno g i x sol) = (libres g).erase i := by
  ext j
  rw [Finset.mem_erase, mem_libres, mem_libres, estaLibre, estaLibre, conTurno, List.length_set]
  by_cases hj : j = i
  · subst hj
    simp only [List.getElem?_set_self']
    cases g.instancias[j]? <;> simp [asignada]
  · simp only [List.getElem?_set_ne (Ne.symm hj)]
    simp [hj]

/-- A turn of the loop, and its exits. -/
theorem despacharCola_cons (g : GrupoIo) (sol : Solicitud) (q : List Solicitud) :
    (libres g = ∅ ∧
      despacharCola g (sol :: q) = ({ g with colaEsperaCompartida := sol :: q }, [])) ∨
    ∃ i x, EsPrimera g.instancias.length (libres g) g.ultimoDespachoIdx i ∧
      g.instancias[i]? = some x ∧
      despacharCola g (sol :: q) = ((despacharCola (conTurno g i x sol) q).1,
        (x.socketFd, sol) :: (despacharCola (conTurno g i x sol) q).2) := by
  rw [despacharCola]
  cases hlibre : instanciaLibre g with
  | none => exact Or.inl ⟨primeraLibre_none (fun j => mem_libres) hlibre, rfl⟩
  | some i =>
    have hprimera := primeraLibre_some (fun j => mem_libres) hlibre
    have hi := List.getElem?_eq_getElem (mem_libres.mp hprimera.mem).1
    dsimp only
    rw [hi]
    exact Or.inr ⟨i, _, hprimera, hi, rfl⟩

end Turno

/-- The loop, by induction on the requests that wait. -/
theorem despacho_cola (g : GrupoIo) (q : List Solicitud) :
    ∃ turnos, Despacho g q turnos (despacharCola g q) := by
  induction q generalizing g with
  | nil => exact ⟨[], by simp, trivial, rfl, rfl, rfl, by simp, fun _ _ => rfl, rfl, ⟨rfl, rfl⟩,
      Or.inl rfl⟩
  | cons sol q ih =>
    rcases despacharCola_cons g sol q with ⟨hvacio, hr⟩ | ⟨i, x, hprimera, hx, hr⟩
    · rw [hr]
      exact ⟨[], by simp [hvacio], trivial, rfl, rfl, rfl, by simp, fun _ _ => rfl, rfl, ⟨rfl, rfl⟩,
        Or.inr (libres_vacio hvacio)⟩
    · obtain ⟨turnos, h⟩ := ih (conTurno g i x sol)
      have hlibres : libres (conTurno g i x sol) = (libres g).erase i := libres_conTurno
      have hlargo : (conTurno g i x sol).instancias.length = g.instancias.length :=
        List.length_set
      have hcircular := h.circular
      rw [hlibres, hlargo] at hcircular
      have hajena : i ∉ turnos := fun hi =>
        Finset.notMem_erase i (libres g) (hcircular.mem i hi)
      have hotra : ∀ j, j ≠ i → (conTurno g i x sol).instancias[j]? = g.instancias[j]? :=
        fun j hj => List.getElem?_set_ne (Ne.symm hj)
      rw [hr]
      refine ⟨i :: turnos, ?_, ⟨hprimera, hcircular⟩, ?_, ?_, h.cola, ?_, ?_, ?_, h.datos,
        h.termina⟩
      · have hpos : 0 < (libres g).card := Finset.card_pos.mpr ⟨i, hprimera.mem⟩
        rw [List.length_cons, List.length_cons, h.cantidad, hlibres,
          Finset.card_erase_of_mem hprimera.mem]
        omega
      · rw [List.map_cons, h.pedidos]
        rfl
      · rw [List.map_cons, h.conexiones, List.map_cons, hx]
        congr 1
        refine List.map_congr_left fun j hj => ?_
        rw [hotra j fun hji => hajena (hji ▸ hj)]
      · rintro (_ | j) i' sol' hi' hsol'
        · cases hi'
          cases hsol'
          rw [h.ajenas i hajena, hx]
          have hlt : i < g.instancias.length := (mem_libres.mp hprimera.mem).1
          exact List.getElem?_set_self hlt
        · have hmem : i' ∈ turnos := List.mem_of_getElem? hi'
          rw [h.ocupadas j i' sol' hi' hsol', hotra i' fun hii => hajena (hii ▸ hmem)]
      · intro j hj
        obtain ⟨hji, hj⟩ := not_or.mp (mt List.mem_cons.mpr hj)
        rw [h.ajenas j hj, hotra j hji]
      · rw [List.map_cons, List.getLastD_cons, h.ultimo]
        rfl

/-- The packets of a dispatch, on each connection. -/
theorem enviados_despacho (nombre : List Byte) (xs : List (ℕ × Solicitud))
    (e : Canal → List Mensaje) (fd : ℕ) : xs.foldl (enviarPedido nombre) e (.io fd) =
      e (.io fd) ++ (xs.filter fun x => x.1 = fd).map fun x => .io nombre x.2 := by
  induction xs generalizing e with
  | nil => exact (List.append_nil _).symm
  | cons x xs ih =>
    rw [List.foldl_cons, ih]
    by_cases hfd : x.1 = fd
    · subst hfd
      rw [enviarPedido, Function.update_self, List.filter_cons_of_pos (by simp),
        List.append_assoc]
      rfl
    · rw [enviarPedido, Function.update_of_ne, List.filter_cons_of_neg (by simpa using hfd)]
      intro heq
      exact hfd (Canal.io.inj heq).symm

/-- The dispatch of a group is FIFO over its requests, exclusive over its instances and leaves
neither idle while the other waits. -/
theorem despacho_io_exacto (k : Kernel) (g : GrupoIo) : ∃ turnos,
    Despacho g g.colaEsperaCompartida turnos (despacharIoSiEsPosible g) ∧ turnos.Nodup ∧
      (∀ i ∈ turnos, i ∈ libres g) ∧
      ∀ fd, (guardarGrupo k (despacharIoSiEsPosible g)).enviados (.io fd) =
        k.enviados (.io fd) ++ ((despacharIoSiEsPosible g).2.filter fun x => x.1 = fd).map
          fun x => .io g.nombreDispositivo x.2 := by
  obtain ⟨turnos, h⟩ := despacho_cola g g.colaEsperaCompartida
  refine ⟨turnos, h, h.circular.nodup, h.circular.mem, fun fd => ?_⟩
  have hnombre : (despacharIoSiEsPosible g).1.nombreDispositivo = g.nombreDispositivo := h.datos.2
  rw [guardarGrupo, hnombre]
  exact enviados_despacho g.nombreDispositivo _ k.enviados fd

end KernelDespachoIo
