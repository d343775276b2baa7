import Tpssoo.KernelFlujos
import Tpssoo.KernelEjecucion
import Tpssoo.KernelSuspension
import Tpssoo.KernelSaludos

/-!
# Each PCB is in one place

A process is once in one of the seven queues or in the hands of a thread, and a freed one
nowhere. Its state is that of its queue, unless the thread that put it there has not changed
it yet. What keeps this is that no thread moves a process that another one has.
-/
namespace KernelLugares

open EnterosC Protocolo KernelEstado KernelFunciones KernelHilos KernelVistas KernelPcbs
open KernelPresentes KernelLargoPlazo KernelSaludos KernelSuspension KernelEjecucion
open KernelDispositivos KernelFlujos
open Entrelazado

/-- What a thread that has a process in its hands is to do with it: handle the response of its
CPU, finalise it, put it in `cola_exit` or free it. -/
inductive Papel where
  | maneja | finaliza | entrega | libera
  deriving DecidableEq

/-- The processes in the hands of a thread. -/
def toca : Hilo → List (Papel × ℤ)
  | .escuchaAgregaExit _ pcb | .escuchaBloquea _ pcb _ _ | .escuchaSinDispositivo _ pcb
  | .escuchaBloqueaDump _ pcb | .escuchaAgregaReady _ pcb
  | .escuchaFinaliza _ pcb => [(.maneja, pcb)]
  | .ioFinaliza pcbs => pcbs.map fun p => (.finaliza, p)
  | .ioFinalizaAgrega pcb resto => (.entrega, pcb) :: resto.map fun p => (.finaliza, p)
  | .escuchaFinalizaAgrega _ pcb | .escuchaFinalizaTomado _ pcb | .dumpFinaliza pcb
  | .dumpFinalizaTomado pcb => [(.entrega, pcb)]
  | .gestorPide pcb | .gestorAguarda pcb | .gestorLibera pcb _ => [(.libera, pcb)]
  | _ => []

/-- Where a process may be. -/
inductive Lugar where
  | cola (e : Estado)
  | mano (x : Papel)
  deriving DecidableEq

/-- How many times a process is in a place. -/
def veces (s : Sistema Kernel Hilo) (p : ℤ) : Lugar → ℕ
  | .cola e => (s.comun.colas e).count p
  | .mano x => (s.hilos.flatMap toca).count (x, p)

/-- The state that a thread has still to give to a process that it has put in a queue. -/
def debe : Hilo → Option (Estado × ℤ)
  | .escuchaCambiaReady _ pcb => some (.ready, pcb)
  | .escuchaCambiaExit _ pcb => some (.exit, pcb)
  | _ => none

/-- The state of a process agrees with its place. -/
def Concuerda (hs : List Hilo) (p : ℤ) (e : Estado) : Lugar → Prop
  | .cola e' => e = e' ∨ e = .running ∧ (e', p) ∈ hs.filterMap debe
  | .mano .maneja => e = .running
  | .mano .entrega => e = .exit
  | .mano _ => True

/-- The process is in one place, and if its block has been freed in none. -/
def EnLugar (s : Sistema Kernel Hilo) (p : ℤ) : Prop :=
  estadoDe s.comun p = none ∧ (∀ x, veces s p x = 0) ∨
    ∃ x e, estadoDe s.comun p = some e ∧ (∀ y, veces s p y = if y = x then 1 else 0) ∧
      Concuerda s.hilos p e x

structure Lugares (s : Sistema Kernel Hilo) : Prop where
  lugar : ∀ p, EnLugar s p
  entrantes : ∀ p, (.ready, p) ∈ s.hilos.filterMap debe → 0 < veces s p (.cola .ready)
  salientes : ∀ p, (.exit, p) ∈ s.hilos.filterMap debe → p < s.comun.ultimoPid ∧
    (estadoDe s.comun p = none ∨ 0 < veces s p (.cola .exit) ∨ 0 < veces s p (.mano .libera))

/-- A block has the PID that it is kept under, and the PIDs from the next one are not in use. -/
structure Pids (k : Kernel) : Prop where
  propios : ∀ p b, k.pcbs p = some b → b.pid = p
  nuevos : ∀ p, k.ultimoPid ≤ p → k.pcbs p = none

section Sitios

variable {s s' : Sistema Kernel Hilo} {p : ℤ} {x y : Lugar} {e : Estado}

/-- The place of a process that is known to be somewhere. -/
theorem EnLugar.sitio (h : EnLugar s p) (hx : 0 < veces s p x) :
    ∃ e, estadoDe s.comun p = some e ∧ (∀ y, veces s p y = if y = x then 1 else 0) ∧
      Concuerda s.hilos p e x := by
  rcases h with ⟨-, hcero⟩ | ⟨z, e, hest, hveces, hcon⟩
  · exact absurd (hcero x) hx.ne'
  · have heq : x = z := by
      by_contra hne
      rw [hveces, if_neg hne] at hx
      exact absurd hx (Nat.lt_irrefl 0)
    subst heq
    exact ⟨e, hest, hveces, hcon⟩

/-- The process goes to another place. -/
theorem EnLugar.muda (h : EnLugar s p) (hx : 0 < veces s p x)
    (hveces : ∀ z, veces s' p z + (if z = x then 1 else 0) = veces s p z + if z = y then 1 else 0)
    (hest : estadoDe s'.comun p = some e) (hcon : Concuerda s'.hilos p e y) : EnLugar s' p := by
  obtain ⟨-, -, hsolo, -⟩ := h.sitio hx
  refine Or.inr ⟨y, e, hest, fun z => ?_, hcon⟩
  have hz := hveces z
  rw [hsolo] at hz
  omega

/-- Another process moves. -/
theorem EnLugar.igual (h : EnLugar s p) (hveces : ∀ z, veces s' p z = veces s p z)
    (hest : estadoDe s'.comun p = estadoDe s.comun p)
    (hdebe : ∀ e, (e, p) ∈ s.hilos.filterMap debe → (e, p) ∈ s'.hilos.filterMap debe) :
    EnLugar s' p := by
  rcases h with ⟨hnone, hcero⟩ | ⟨x, e, hsome, hsolo, hcon⟩
  · exact Or.inl ⟨hest.trans hnone, fun z => (hveces z).trans (hcero z)⟩
  · refine Or.inr ⟨x, e, hest.trans hsome, fun z => (hveces z).trans (hsolo z), ?_⟩
    cases x with
    | cola e' =>
      rcases hcon with hcon | ⟨hrun, hcon⟩
      · exact Or.inl hcon
      · exact Or.inr ⟨hrun, hdebe e' hcon⟩
    | mano x => cases x <;> exact hcon

end Sitios

section Movimientos

variable {k k' : Kernel} {l r ds : List Hilo} {o : Hilo} {p q : ℤ} {x y : Lugar} {e e' : Estado}

/-- A process goes from one place to another, as far as the queues show. -/
def Pasa (k k' : Kernel) (q : ℤ) (x y : Lugar) : Prop :=
  ∀ e p, (k'.colas e).count p + (if .cola e = x ∧ q = p then 1 else 0) =
    (k.colas e).count p + if .cola e = y ∧ q = p then 1 else 0

/-- A process goes from one place to another, as far as the hands of the threads show. -/
def Entrega (o : Hilo) (ds : List Hilo) (q : ℤ) (x y : Lugar) : Prop :=
  ∀ z p, (ds.flatMap toca).count (z, p) + (if .mano z = x ∧ q = p then 1 else 0) =
    (toca o).count (z, p) + if .mano z = y ∧ q = p then 1 else 0

theorem veces_paso (hpasa : Pasa k k' q x y) (hentrega : Entrega o ds q x y) (p : ℤ) (z : Lugar) :
    veces ⟨k', l ++ (ds ++ r)⟩ p z + (if z = x ∧ q = p then 1 else 0) =
      veces ⟨k, l ++ o :: r⟩ p z + if z = y ∧ q = p then 1 else 0 := by
  cases z with
  | cola e => exact hpasa e p
  | mano z =>
    have h := hentrega z p
    simp only [veces, List.flatMap_append, List.flatMap_cons, List.count_append]
    omega

theorem pasa_nada (hcolas : k'.colas = k.colas) (z w : Papel) : Pasa k k' q (.mano z)
    (.mano w) := by
  intro e p
  rw [hcolas]
  simp

theorem pasa_sacar (hq : q ∈ k.colas e) (hcolas : k'.colas = (k.quitar e q).colas) (z : Papel) :
    Pasa k k' q (.cola e) (.mano z) := by
  intro e' p
  have huno : 0 < (k.colas e).count q := List.count_pos_iff.mpr hq
  rw [hcolas, count_quitar]
  by_cases h : e' = e ∧ q = p
  · obtain ⟨rfl, rfl⟩ := h
    simp
    omega
  · rw [if_neg h, if_neg (by simpa using h), if_neg (by simp)]
    rfl

theorem pasa_agregar (hcolas : k'.colas = (k.agregar e q).colas) (z : Papel) :
    Pasa k k' q (.mano z) (.cola e) := by
  intro e' p
  rw [hcolas, count_agregar]
  simp

theorem pasa_mover (hq : q ∈ k.colas e) (hcolas : k'.colas = ((k.quitar e q).agregar e' q).colas) :
    Pasa k k' q (.cola e) (.cola e') := by
  intro e'' p
  have h := pasa_sacar hq rfl .maneja e'' p
  rw [hcolas, count_agregar]
  simp only [reduceCtorEq, false_and, if_false, Lugar.cola.injEq] at h ⊢
  omega

/-- A process that is not in a queue is taken out of it on its way to another. -/
theorem pasa_entrar (hq : q ∉ k.colas e) (hcolas : k'.colas = ((k.quitar e q).agregar e' q).colas)
    (z : Papel) : Pasa k k' q (.mano z) (.cola e') := by
  have hmismas : (k.quitar e q).colas = k.colas := by
    funext e''
    rw [Kernel.colas_quitar]
    split
    · next heq => rw [heq, List.erase_of_not_mem hq]
    · rfl
  refine pasa_agregar ?_ z
  rw [hcolas, Kernel.agregar, Kernel.agregar]
  dsimp only
  rw [hmismas]

theorem debe_medio {x : Estado × ℤ} : x ∈ (l ++ (ds ++ r)).filterMap debe ↔
    x ∈ ds.filterMap debe ∨ x ∈ (l ++ r).filterMap debe := by
  simp only [List.filterMap_append, List.mem_append]
  tauto

theorem debe_otros {x : Estado × ℤ} (ho : debe o = none) :
    x ∈ (l ++ o :: r).filterMap debe ↔ x ∈ (l ++ r).filterMap debe := by
  rw [List.filterMap_append, List.filterMap_cons_none ho, List.filterMap_append]

/-- One process moves. -/
theorem Lugares.muda (h : Lugares ⟨k, l ++ o :: r⟩) (hpids : Pids k)
    (hx : 0 < veces ⟨k, l ++ o :: r⟩ q x) (hpasa : Pasa k k' q x y) (hentrega : Entrega o ds q x y)
    (hest : ∀ p, p ≠ q → estadoDe k' p = estadoDe k p)
    (hq : ∃ e, estadoDe k' q = some e ∧ Concuerda (l ++ (ds ++ r)) q e y)
    (hult : k.ultimoPid ≤ k'.ultimoPid) (ho : debe o = none)
    (hds : ∀ e p, (e, p) ∈ ds.filterMap debe → y = .cola e ∧ p = q)
    (hready : x = .cola .ready → (.ready, q) ∉ (l ++ o :: r).filterMap debe)
    (hexit : x = .cola .exit → y = .mano .libera) (hlibera : x ≠ .mano .libera) :
    Lugares ⟨k', l ++ (ds ++ r)⟩ := by
  have hveces := fun p z => veces_paso (l := l) (r := r) hpasa hentrega p z
  have hsigue : ∀ p z, ¬ (z = x ∧ q = p) → veces ⟨k, l ++ o :: r⟩ p z ≤
      veces ⟨k', l ++ (ds ++ r)⟩ p z := by
    intro p z hne
    have hz := hveces p z
    rw [if_neg hne] at hz
    omega
  have hllega : 0 < veces ⟨k', l ++ (ds ++ r)⟩ q y := by
    have hz : veces ⟨k', l ++ (ds ++ r)⟩ q y + (if y = x then 1 else 0) =
        veces ⟨k, l ++ o :: r⟩ q y + 1 := by simpa using hveces q y
    by_cases hxy : y = x
    · subst hxy
      rw [if_pos rfl] at hz
      omega
    · rw [if_neg hxy] at hz
      omega
  have hviva : q < k.ultimoPid := by
    obtain ⟨e, he, -⟩ := (h.lugar q).sitio hx
    by_contra hno
    have hnone := hpids.nuevos q (not_lt.mp hno)
    have he : estadoDe k q = some e := he
    rw [estadoDe, hnone] at he
    cases he
  constructor
  · intro p
    by_cases hp : p = q
    · subst hp
      obtain ⟨e, he, hcon⟩ := hq
      refine (h.lugar p).muda hx (fun z => ?_) he hcon
      have hz := hveces p z
      simpa using hz
    · have hp' : ¬ q = p := fun heq => hp heq.symm
      refine (h.lugar p).igual (fun z => ?_) (hest p hp) fun e he => ?_
      · have hz := hveces p z
        simpa [hp'] using hz
      · exact debe_medio.mpr (Or.inr ((debe_otros ho).mp he))
  · intro p hp
    rcases debe_medio.mp hp with hp | hp
    · obtain ⟨hy, rfl⟩ := hds _ p hp
      exact hy ▸ hllega
    · have hp' := (debe_otros ho).mpr hp
      refine (h.entrantes p hp').trans_le (hsigue p _ ?_)
      rintro ⟨hx', rfl⟩
      exact hready hx'.symm hp'
  · intro p hp
    rcases debe_medio.mp hp with hp | hp
    · obtain ⟨hy, rfl⟩ := hds _ p hp
      exact ⟨hviva.trans_le hult, Or.inr (Or.inl (hy ▸ hllega))⟩
    · obtain ⟨hlt, hsale⟩ := h.salientes p ((debe_otros ho).mpr hp)
      refine ⟨hlt.trans_le hult, ?_⟩
      rcases hsale with hnone | hsale | hsale
      · have hne : p ≠ q := by
          rintro rfl
          obtain ⟨e, he, -⟩ := (h.lugar p).sitio hx
          cases hnone.symm.trans he
        exact Or.inl ((hest p hne).trans hnone)
      · by_cases hes : .cola .exit = x ∧ q = p
        · obtain ⟨hx', rfl⟩ := hes
          exact Or.inr (Or.inr (hexit hx'.symm ▸ hllega))
        · exact Or.inr (Or.inl (hsale.trans_le (hsigue p _ hes)))
      · refine Or.inr (Or.inr (hsale.trans_le (hsigue p _ ?_)))
        rintro ⟨hx', -⟩
        exact hlibera hx'.symm

/-- No process moves. -/
theorem Lugares.quieto (h : Lugares ⟨k, l ++ o :: r⟩)
    (hcolas : ∀ e p, (k'.colas e).count p = (k.colas e).count p)
    (hmanos : (ds.flatMap toca).Perm (toca o)) (hest : ∀ p, estadoDe k' p = estadoDe k p)
    (hult : k.ultimoPid ≤ k'.ultimoPid) (hdebe : ds.filterMap debe = [o].filterMap debe) :
    Lugares ⟨k', l ++ (ds ++ r)⟩ := by
  have hveces : ∀ p z, veces ⟨k', l ++ (ds ++ r)⟩ p z = veces ⟨k, l ++ o :: r⟩ p z := by
    intro p z
    cases z with
    | cola e => exact hcolas e p
    | mano z =>
      simp only [veces, List.flatMap_append, List.flatMap_cons, List.count_append, hmanos.count_eq]
  have hmismos : (l ++ (ds ++ r)).filterMap debe = (l ++ o :: r).filterMap debe := by
    rw [← List.singleton_append (x := o), List.filterMap_append, List.filterMap_append, hdebe,
      ← List.filterMap_append, ← List.filterMap_append]
  constructor
  · exact fun p => (h.lugar p).igual (hveces p) (hest p) fun e he => hmismos ▸ he
  · intro p hp
    rw [hveces]
    exact h.entrantes p (hmismos ▸ hp)
  · intro p hp
    obtain ⟨hlt, hsale⟩ := h.salientes p (hmismos ▸ hp)
    rw [hveces, hveces]
    dsimp only
    rw [hest]
    exact ⟨hlt.trans_le hult, hsale⟩

theorem entrega_nada (ho : toca o = []) (hds : ds.flatMap toca = []) :
    Entrega o ds q (.cola e) (.cola e') := by
  intro z p
  rw [ho, hds]
  simp

theorem entrega_toma {z : Papel} (ho : toca o = []) (hds : ds.flatMap toca = [(z, q)]) :
    Entrega o ds q (.cola e) (.mano z) := by
  intro w p
  rw [ho, hds, List.count_singleton, List.count_nil]
  simp only [beq_iff_eq, Prod.mk.injEq, Lugar.mano.injEq, reduceCtorEq, false_and, if_false,
    eq_comm (a := w)]
  omega

theorem entrega_deja {z : Papel} {xs : List (Papel × ℤ)} (ho : toca o = (z, q) :: xs)
    (hds : ds.flatMap toca = xs) : Entrega o ds q (.mano z) (.cola e) := by
  intro w p
  rw [ho, hds, List.count_cons]
  simp only [beq_iff_eq, Prod.mk.injEq, Lugar.mano.injEq, reduceCtorEq, false_and, if_false,
    eq_comm (a := w)]
  omega

theorem entrega_sigue {z z' : Papel} {xs : List (Papel × ℤ)} (ho : toca o = (z, q) :: xs)
    (hds : ds.flatMap toca = (z', q) :: xs) : Entrega o ds q (.mano z) (.mano z') := by
  intro w p
  rw [ho, hds, List.count_cons, List.count_cons]
  simp only [Prod.mk.injEq, beq_iff_eq, Lugar.mano.injEq, eq_comm (a := w)]
  omega

theorem veces_origen {z : Papel} (h : (z, q) ∈ toca o) : 0 <
    veces ⟨k, l ++ o :: r⟩ q (.mano z) := by
  refine List.count_pos_iff.mpr (List.mem_flatMap.mpr ⟨o, ?_, h⟩)
  exact List.mem_append_right _ List.mem_cons_self

theorem veces_cola {s : Sistema Kernel Hilo} (h : q ∈ s.comun.colas e) : 0 < veces s q (.cola e) :=
  List.count_pos_iff.mpr h

/-- A process in the hands of a thread is in no queue. -/
theorem EnLugar.sin_cola {s : Sistema Kernel Hilo} {z : Papel} (h : EnLugar s q)
    (hz : 0 < veces s q (.mano z)) (e : Estado) : q ∉ s.comun.colas e := by
  obtain ⟨-, -, hsolo, -⟩ := h.sitio hz
  exact List.count_eq_zero.mp ((hsolo (.cola e)).trans (if_neg nofun))

theorem estadoDe_congr (h : k'.pcbs p = k.pcbs p) : estadoDe k' p = estadoDe k p := by
  rw [estadoDe, estadoDe, h]

end Movimientos

section Casos

variable {k k' : Kernel} {l r ds : List Hilo} {o : Hilo} {p q : ℤ} {x y : Lugar} {e e' : Estado}

theorem estado_puesto_en {f : Pcb → Pcb}
    (hpcbs : k'.pcbs = Function.update k.pcbs q ((k.pcbs q).map f)) (hf : ∀ b, (f b).estado = e) :
    (∀ p, p ≠ q → estadoDe k' p = estadoDe k p) ∧
      estadoDe k' q = (estadoDe k q).map fun _ => e := by
  constructor
  · intro p hp
    apply estadoDe_congr
    rw [hpcbs, Function.update_of_ne hp]
  · rw [estadoDe, estadoDe, hpcbs, Function.update_self, Option.map_map, Option.map_map]
    congr 1
    exact funext hf

/-- The state of a process is set as it moves. -/
theorem estado_puesto {t : Kernel} (hpcbs : k'.pcbs = (t.cambiarEstado q e).pcbs)
    (ht : ∀ p, estadoDe t p = estadoDe k p) :
    (∀ p, p ≠ q → estadoDe k' p = estadoDe k p) ∧
      estadoDe k' q = (estadoDe k q).map fun _ => e := by
  have hest : ∀ p, estadoDe k' p = if p = q then (estadoDe k p).map fun _ => e
      else estadoDe k p := by
    intro p
    rw [estadoDe_congr (congrFun hpcbs p), estadoDe_cambiarEstado, ht]
  refine ⟨fun p hp => ?_, ?_⟩
  · rw [hest, if_neg hp]
  · rw [hest, if_pos rfl]

/-- From a queue to another, with its state. -/
theorem Lugares.pasa (h : Lugares ⟨k, l ++ o :: r⟩) (hP : Pids k) (hq : q ∈ k.colas e)
    (hpasa : Pasa k k' q (.cola e) (.cola e'))
    (hest : (∀ p, p ≠ q → estadoDe k' p = estadoDe k p) ∧
      estadoDe k' q = (estadoDe k q).map fun _ => e')
    (hult : k.ultimoPid ≤ k'.ultimoPid) (ho : toca o = []) (hds : ds.flatMap toca = [])
    (hdo : debe o = none) (hdd : ds.filterMap debe = []) (hsale : e ≠ .exit)
    (hready : e = .ready → (.ready, q) ∉ (l ++ o :: r).filterMap debe) :
    Lugares ⟨k', l ++ (ds ++ r)⟩ := by
  have hx : 0 < veces ⟨k, l ++ o :: r⟩ q (.cola e) := veces_cola hq
  obtain ⟨e₀, he₀, -, -⟩ := (h.lugar q).sitio hx
  have he₀ : estadoDe k q = some e₀ := he₀
  refine h.muda hP hx hpasa (entrega_nada ho hds) hest.1 ⟨e', ?_, Or.inl rfl⟩ hult hdo ?_
    ?_ ?_ nofun
  · rw [hest.2, he₀]
    rfl
  · rw [hdd]
    exact nofun
  · exact fun heq => hready (Lugar.cola.inj heq)
  · exact fun heq => absurd (Lugar.cola.inj heq) hsale

/-- From the hands of a thread to `cola_exit`. -/
theorem Lugares.entrega {xs : List (Papel × ℤ)} (h : Lugares ⟨k, l ++ o :: r⟩) (hP : Pids k)
    (ho : toca o = (.entrega, q) :: xs) (hds : ds.flatMap toca = xs) (hdo : debe o = none)
    (hdd : ds.filterMap debe = []) (hcolas : k'.colas = (k.agregar .exit q).colas)
    (hpcbs : k'.pcbs = k.pcbs) (hult : k'.ultimoPid = k.ultimoPid) :
    Lugares ⟨k', l ++ (ds ++ r)⟩ := by
  have hx : 0 < veces ⟨k, l ++ o :: r⟩ q (.mano .entrega) := veces_origen (ho ▸ List.mem_cons_self)
  obtain ⟨e₀, he₀, -, hcon⟩ := (h.lugar q).sitio hx
  have hest : ∀ p, estadoDe k' p = estadoDe k p := fun p => estadoDe_congr (congrFun hpcbs p)
  refine h.muda hP hx (pasa_agregar hcolas _) (entrega_deja ho hds) (fun p _ => hest p)
    ⟨e₀, (hest q).trans he₀, Or.inl hcon⟩ hult.ge hdo ?_ nofun nofun nofun
  rw [hdd]
  exact nofun

/-- From the hands of a thread to a queue, before its state is changed. -/
theorem Lugares.agrega {d : Hilo} (h : Lugares ⟨k, l ++ o :: r⟩) (hP : Pids k)
    (ho : toca o = [(.maneja, q)]) (hds : toca d = []) (hdo : debe o = none)
    (hdd : debe d = some (e, q)) : Lugares ⟨k.agregar e q, l ++ ([d] ++ r)⟩ := by
  have hx : 0 < veces ⟨k, l ++ o :: r⟩ q (.mano .maneja) := veces_origen (ho ▸ List.mem_cons_self)
  obtain ⟨e₀, he₀, -, hcon⟩ := (h.lugar q).sitio hx
  have hd : [d].filterMap debe = [(e, q)] := List.filterMap_cons_some hdd
  have hds' : [d].flatMap toca = [] := by rw [List.flatMap_singleton, hds]
  refine h.muda hP hx (pasa_agregar rfl _) (entrega_deja ho hds') (fun p _ => rfl)
    ⟨e₀, he₀, Or.inr ⟨hcon, ?_⟩⟩ (Int.le_refl _) hdo ?_ nofun nofun nofun
  · exact debe_medio.mpr (Or.inl (hd ▸ List.mem_cons_self))
  · intro e' p hp
    rw [hd] at hp
    obtain ⟨rfl, rfl⟩ := Prod.mk.inj (List.mem_singleton.mp hp)
    exact ⟨rfl, rfl⟩

/-- From `cola_exec` to the hands of the thread that listens to its CPU. -/
theorem Lugares.saca {z : Papel} (h : Lugares ⟨k, l ++ o :: r⟩) (hP : Pids k)
    (hq : q ∈ k.colas .running) (hcolas : k'.colas = (k.quitar .running q).colas)
    (hest : ∀ p, p ≠ q → estadoDe k' p = estadoDe k p)
    (hen : estadoDe k q = some .running → ∃ e, estadoDe k' q = some e ∧
      Concuerda (l ++ (ds ++ r)) q e (.mano z))
    (hult : k.ultimoPid ≤ k'.ultimoPid) (ho : toca o = []) (hds : ds.flatMap toca = [(z, q)])
    (hdo : debe o = none) (hdd : ds.filterMap debe = []) : Lugares ⟨k', l ++ (ds ++ r)⟩ := by
  have hx : 0 < veces ⟨k, l ++ o :: r⟩ q (.cola .running) := veces_cola hq
  obtain ⟨e₀, he₀, -, hcon⟩ := (h.lugar q).sitio hx
  have hrun : e₀ = .running := hcon.elim id And.left
  subst hrun
  refine h.muda hP hx (pasa_sacar hq hcolas z) (entrega_toma ho hds) hest (hen he₀) hult hdo ?_
    nofun nofun nofun
  rw [hdd]
  exact nofun

/-- From the hands of a thread to the same, or to be handed to `cola_exit`, with its state. -/
theorem Lugares.termina {z : Papel} {xs : List (Papel × ℤ)} (h : Lugares ⟨k, l ++ o :: r⟩)
    (hP : Pids k)
    (hz : z ≠ .libera) (ho : toca o = (z, q) :: xs) (hds : ds.flatMap toca = (.entrega, q) :: xs)
    (hdo : debe o = none) (hdd : ds.filterMap debe = []) :
    Lugares ⟨k.cambiarEstado q .exit, l ++ (ds ++ r)⟩ := by
  have hx : 0 < veces ⟨k, l ++ o :: r⟩ q (.mano z) := veces_origen (ho ▸ List.mem_cons_self)
  obtain ⟨e₀, he₀, -, -⟩ := (h.lugar q).sitio hx
  have he₀ : estadoDe k q = some e₀ := he₀
  have hpuesto : (∀ p, p ≠ q → estadoDe (k.cambiarEstado q .exit) p = estadoDe k p) ∧
      estadoDe (k.cambiarEstado q .exit) q = (estadoDe k q).map fun _ => .exit :=
    estado_puesto rfl fun _ => rfl
  obtain ⟨hest, hen⟩ := hpuesto
  refine h.muda hP hx (pasa_nada rfl z .entrega) (entrega_sigue ho hds) hest ⟨.exit, ?_, rfl⟩
    (Int.le_refl _) hdo ?_ nofun nofun ?_
  · rw [hen, he₀]
    rfl
  · rw [hdd]
    exact nofun
  · exact fun heq => hz (Lugar.mano.inj heq)

/-- A thread gives a process the state that it still had to give it. -/
theorem Lugares.cambia (h : Lugares ⟨k, l ++ o :: r⟩) (ho : toca o = [])
    (hds : ds.flatMap toca = [])
    (hdo : debe o = some (e, q)) (hdd : ds.filterMap debe = []) (hcolas : k'.colas = k.colas)
    (hest : (∀ p, p ≠ q → estadoDe k' p = estadoDe k p) ∧ estadoDe k' q =
      (estadoDe k q).map fun _ => e)
    (hult : k'.ultimoPid = k.ultimoPid)
    (hq : estadoDe k q = none ∨ 0 < veces ⟨k, l ++ o :: r⟩ q (.cola e) ∨
      0 < veces ⟨k, l ++ o :: r⟩ q (.mano .libera)) : Lugares ⟨k', l ++ (ds ++ r)⟩ := by
  have hveces : ∀ p z, veces ⟨k', l ++ (ds ++ r)⟩ p z = veces ⟨k, l ++ o :: r⟩ p z := by
    intro p z
    cases z with
    | cola e => exact (congrArg (fun q : Estado → List ℤ => (q e).count p) hcolas :)
    | mano z => simp only [veces, List.flatMap_append, List.flatMap_cons, ho, hds, List.nil_append]
  have hquedan : ∀ {x}, x ∈ (l ++ (ds ++ r)).filterMap debe → x ∈ (l ++ o :: r).filterMap debe := by
    intro x hx
    rcases debe_medio.mp hx with hx | hx
    · rw [hdd] at hx
      cases hx
    · simp only [List.filterMap_append, List.filterMap_cons_some hdo, List.mem_append,
        List.mem_cons] at hx ⊢
      tauto
  constructor
  · intro p
    by_cases hp : p = q
    · subst hp
      rcases h.lugar p with ⟨hnone, hcero⟩ | ⟨x, e₀, he₀, hsolo, -⟩
      · refine Or.inl ⟨?_, fun z => (hveces p z).trans (hcero z)⟩
        have hnone : estadoDe k p = none := hnone
        exact hest.2.trans (by rw [hnone]; rfl)
      · have he₀ : estadoDe k p = some e₀ := he₀
        refine Or.inr ⟨x, e, hest.2.trans (by rw [he₀]; rfl),
          fun z => (hveces p z).trans (hsolo z), ?_⟩
        have hx : ∀ z, 0 < veces ⟨k, l ++ o :: r⟩ p z → x = z := by
          intro z hz
          by_contra hne
          rw [hsolo, if_neg fun heq => hne heq.symm] at hz
          exact absurd hz (Nat.lt_irrefl 0)
        rcases hq with hnone | hz | hz
        · cases he₀.symm.trans hnone
        · rw [hx _ hz]
          exact Or.inl rfl
        · rw [hx _ hz]
          trivial
    · refine (h.lugar p).igual (hveces p) (hest.1 p hp) fun e' he' => ?_
      refine debe_medio.mpr (Or.inr ?_)
      simp only [List.filterMap_append, List.filterMap_cons_some hdo, List.mem_append,
        List.mem_cons] at he' ⊢
      rcases he' with he' | he' | he'
      · exact Or.inl he'
      · exact absurd (Prod.mk.inj he').2 hp
      · exact Or.inr he'
  · intro p hp
    rw [hveces]
    exact h.entrantes p (hquedan hp)
  · intro p hp
    obtain ⟨hlt, hsale⟩ := h.salientes p (hquedan hp)
    rw [hveces, hveces]
    refine ⟨hlt.trans_eq hult.symm, hsale.imp_left fun hnone => ?_⟩
    have hnone : estadoDe k p = none := hnone
    by_cases hp : p = q
    · subst hp
      exact hest.2.trans (by rw [hnone]; rfl)
    · exact (hest.1 p hp).trans hnone

/-- The process that `buscar_pcb_por_pid` finds waiting is in the queue of its state. -/
theorem EnLugar.buscado {s : Sistema Kernel Hilo} {pid : ℤ} (h : EnLugar s q)
    (hbusca : buscarPcbPorPid s.comun pid = some (some q)) (he : estadoDe s.comun q = some e)
    (hno : e ≠ .running) : q ∈ s.comun.colas e := by
  have hcola : ∃ e', q ∈ s.comun.colas e' := by
    have hmem := buscarEnCola_mem hbusca
    simp only [List.mem_append] at hmem
    rcases hmem with hmem | hmem | hmem | hmem | hmem <;> exact ⟨_, hmem⟩
  obtain ⟨e', he'⟩ := hcola
  obtain ⟨e₀, he₀, -, hcon⟩ := h.sitio (veces_cola he')
  cases he.symm.trans he₀
  rcases hcon with rfl | ⟨hrun, -⟩
  · exact he'
  · exact absurd hrun hno

end Casos

section Acciones

variable {c : ConfigKernel} {k : Kernel} {l r : List Hilo} {a : Accion} {p q : ℤ} {cpu : ℕ}

theorem pids_efecto (h : Pids k) : Pids ((programa c).efecto k a) := by
  have hcambio : ∀ p, Cambio _ (vistaPcbs k) (vistaPcbs ((programa c).efecto k a)) p :=
    fun _ => cambio_efecto c k a
  constructor
  · intro p b hb
    rcases hcambio p with ⟨-, heq⟩ | ⟨-, hp, hp', hm⟩ | ⟨-, -, hp', hpid, -⟩ | ⟨-, -, hnone⟩
    · exact h.propios p b (heq.symm.trans hb)
    · cases hp'.symm.trans hb
      exact hm.pid.trans (h.propios p _ hp)
    · cases hp'.symm.trans hb
      exact hpid
    · cases hnone.symm.trans hb
  · intro p hle
    rcases hcambio p with ⟨hn, heq⟩ | ⟨hn, hp, -, -⟩ | ⟨hn, hpid, -, -, -⟩ | ⟨-, -, hnone⟩
    · exact heq.trans (h.nuevos p (hn.trans hle))
    · cases (h.nuevos p (hn.trans hle)).symm.trans hp
    · have hn : ((programa c).efecto k a).ultimoPid = k.ultimoPid + 1 := hn
      have hpid : p = k.ultimoPid := hpid
      omega
    · exact hnone

/-- The actions that move a process or change its state. -/
def mueve : Accion → Bool
  | .largoResuelve _ _ _ | .cortoPlanifica | .gestorToma | .gestorLibera _ _
  | .suspensionVence _ _ _
  | .dumpFallaConexion _ | .dumpResuelve _ _ | .dumpFinaliza _ | .dumpFinalizaTomado _
  | .recibeInitProc _ _ _ _ _ | .recibeRespuesta _ _ _ _ _ | .recibeOtro _ _
  | .escuchaAgregaExit _ _
  | .escuchaCambiaExit _ _ | .escuchaBloquea _ _ _ _ | .escuchaSinDispositivo _ _
  | .escuchaBloqueaDump _ _ | .escuchaAgregaReady _ _ | .escuchaCambiaReady _ _
  | .escuchaFinaliza _ _
  | .escuchaFinalizaAgrega _ _ | .escuchaRevisa _ | .escuchaFinalizaTomado _ _ | .ioTermina _ _ _ _
  | .ioDesconecta _ _ _ | .ioFinaliza _ _ | .ioFinalizaAgrega _ _ => true
  | _ => false

/-- What the other actions leave alone. -/
theorem quieta_efecto (ha : mueve a = false) :
    (∀ e p, (((programa c).efecto k a).colas e).count p = (k.colas e).count p) ∧
      ((programa c).efecto k a).pcbs = k.pcbs := by
  cases a with
  | largoResuelve _ _ _ | cortoPlanifica | gestorToma | gestorLibera _ _ | suspensionVence _ _ _
  | dumpFallaConexion _ | dumpResuelve _ _ | dumpFinaliza _ | dumpFinalizaTomado _
  | recibeInitProc _ _ _ _ _ | recibeRespuesta _ _ _ _ _ | recibeOtro _ _ | escuchaAgregaExit _ _
  | escuchaCambiaExit _ _ | escuchaBloquea _ _ _ _ | escuchaSinDispositivo _ _
  | escuchaBloqueaDump _ _ | escuchaAgregaReady _ _ | escuchaCambiaReady _ _ | escuchaFinaliza _ _
  | escuchaFinalizaAgrega _ _ | escuchaRevisa _ | escuchaFinalizaTomado _ _ | ioTermina _ _ _ _
  | ioDesconecta _ _ _ | ioFinaliza _ _ | ioFinalizaAgrega _ _ => cases ha
  | largoElige =>
    refine ⟨fun e p => (elegir_colas e).count_eq p, ?_⟩
    exact congrArg VistaPcbs.pcbs (vistaPcbs_elegirCandidato c k)
  | largoEnvia pcb susp | gestorEnvia pcb | dumpEnvia pcb =>
    dsimp only [programa, transicion]
    split <;> exact ⟨fun _ _ => rfl, rfl⟩
  | suspensionResuelve ok =>
    dsimp only [programa, transicion]
    split <;> exact ⟨fun _ _ => rfl, rfl⟩
  | cpuRegistra fd nombre =>
    dsimp only [programa, transicion, registrarCpu]
    split <;> exact ⟨fun _ _ => rfl, rfl⟩
  | interruptRegistra fd nombre =>
    dsimp only [programa, transicion]
    split <;> exact ⟨fun _ _ => rfl, rfl⟩
  | escuchaEncola cpu pcb grupo duracion =>
    dsimp only [programa, transicion, encolarSolicitud]
    split <;> exact ⟨fun _ _ => rfl, rfl⟩
  | escuchaDesaloja cpu pcb =>
    have hcolas := colas_desalojar (c := c) (k := k) pcb
    exact ⟨fun e p => (congrArg (fun q : Estado → List ℤ => (q e).count p) hcolas :),
      congrArg VistaPcbs.pcbs (vistaPcbs_desalojar c k pcb)⟩
  | ioRegistra fd nombre =>
    dsimp only [programa, transicion, registrarInstancia]
    split <;> exact ⟨fun _ _ => rfl, rfl⟩
  | ioDespacha grupo =>
    dsimp only [programa, transicion, despacharGrupo]
    split <;> exact ⟨fun _ _ => rfl, rfl⟩
  | _ => exact ⟨fun _ _ => rfl, rfl⟩

theorem quieta_hilos (ha : mueve a = false) :
    ((programa c).destino k a).flatMap toca = toca ((programa c).origen a) ∧
      ((programa c).destino k a).filterMap debe = [(programa c).origen a].filterMap debe := by
  cases a with
  | largoResuelve _ _ _ | cortoPlanifica | gestorToma | gestorLibera _ _ | suspensionVence _ _ _
  | dumpFallaConexion _ | dumpResuelve _ _ | dumpFinaliza _ | dumpFinalizaTomado _
  | recibeInitProc _ _ _ _ _ | recibeRespuesta _ _ _ _ _ | recibeOtro _ _ | escuchaAgregaExit _ _
  | escuchaCambiaExit _ _ | escuchaBloquea _ _ _ _ | escuchaSinDispositivo _ _
  | escuchaBloqueaDump _ _ | escuchaAgregaReady _ _ | escuchaCambiaReady _ _ | escuchaFinaliza _ _
  | escuchaFinalizaAgrega _ _ | escuchaRevisa _ | escuchaFinalizaTomado _ _ | ioTermina _ _ _ _
  | ioDesconecta _ _ _ | ioFinaliza _ _ | ioFinalizaAgrega _ _ => cases ha
  | largoElige =>
    dsimp only [programa, transicion]
    split <;> exact ⟨rfl, rfl⟩
  | _ => exact ⟨rfl, rfl⟩

theorem lugares_quieta (h : Lugares ⟨k, l ++ (programa c).origen a :: r⟩) (ha : mueve a = false) :
    Lugares ⟨(programa c).efecto k a, l ++ ((programa c).destino k a ++ r)⟩ := by
  obtain ⟨hcolas, hpcbs⟩ := quieta_efecto (c := c) (k := k) ha
  obtain ⟨hmanos, hdebe⟩ := quieta_hilos (c := c) (k := k) ha
  exact h.quieto hcolas (.of_eq hmanos) (fun p => estadoDe_congr (congrFun hpcbs p))
    ultimoPid_efecto hdebe

/-- The block of a process is freed. -/
theorem Lugares.suelta {k' : Kernel} {o : Hilo} {ds : List Hilo} (h : Lugares ⟨k, l ++ o :: r⟩)
    (ho : toca o = [(.libera, q)]) (hds : ds.flatMap toca = []) (hno : debe o = none)
    (hni : ds.filterMap debe = []) (hcolas : k'.colas = k.colas)
    (hpcbs : k'.pcbs = Function.update k.pcbs q none) (hult : k'.ultimoPid = k.ultimoPid) :
    Lugares ⟨k', l ++ (ds ++ r)⟩ := by
  have hx : 0 < veces ⟨k, l ++ o :: r⟩ q (.mano .libera) :=
    veces_origen (ho ▸ List.mem_cons_self)
  obtain ⟨e₀, he₀, hsolo, -⟩ := (h.lugar q).sitio hx
  have hveces : ∀ p z, veces ⟨k', l ++ (ds ++ r)⟩ p z + (if z = .mano .libera ∧
      q = p then 1 else 0) =
      veces ⟨k, l ++ o :: r⟩ p z := by
    intro p z
    cases z with
    | cola e => exact congrArg (fun colas : Estado → List ℤ => (colas e).count p) hcolas
    | mano z =>
      have hdeja : Entrega o ds q (.mano .libera) (.cola .exit) := entrega_deja ho hds
      have h := hdeja z p
      simp only [reduceCtorEq, false_and, if_false] at h
      simp only [veces, List.flatMap_append, List.flatMap_cons, List.count_append] at h ⊢
      omega
  have hest : ∀ p, p ≠ q → estadoDe k' p = estadoDe k p := by
    intro p hp
    apply estadoDe_congr
    rw [hpcbs, Function.update_of_ne hp]
  have hnada : estadoDe k' q = none := by
    rw [estadoDe, hpcbs, Function.update_self]
    rfl
  have hsigue : ∀ x, x ∈ (l ++ (ds ++ r)).filterMap debe ↔ x ∈ (l ++ o :: r).filterMap debe := by
    intro x
    rw [debe_medio, hni, debe_otros hno]
    simp only [List.not_mem_nil, false_or]
  constructor
  · intro p
    by_cases hp : p = q
    · subst hp
      refine Or.inl ⟨hnada, fun z => ?_⟩
      have hz := hveces p z
      rw [hsolo] at hz
      simp only [and_true] at hz
      omega
    · refine (h.lugar p).igual (fun z => ?_) (hest p hp) fun e he => (hsigue _).mpr he
      have hz := hveces p z
      rw [if_neg fun hc => hp hc.2.symm] at hz
      exact hz
  · intro p hp
    have hz := hveces p (.cola .ready)
    have hotro : ¬ (Lugar.cola .ready = .mano .libera ∧ q = p) := by
      rintro ⟨hc, -⟩
      cases hc
    rw [if_neg hotro] at hz
    exact (h.entrantes p ((hsigue _).mp hp)).trans_eq hz.symm
  · intro p hp
    obtain ⟨hlt, hsale⟩ := h.salientes p ((hsigue _).mp hp)
    refine ⟨hlt.trans_eq hult.symm, ?_⟩
    by_cases hp : p = q
    · exact Or.inl (hp ▸ hnada)
    · have hotro : ∀ z, ¬ (z = Lugar.mano .libera ∧ q = p) := fun z hc => hp hc.2.symm
      have hexit := hveces p (.cola .exit)
      have hlibera := hveces p (.mano .libera)
      rw [if_neg (hotro _)] at hexit hlibera
      rcases hsale with hsale | hsale | hsale
      · exact Or.inl ((hest p hp).trans hsale)
      · exact Or.inr (Or.inl (hsale.trans_eq hexit.symm))
      · exact Or.inr (Or.inr (hsale.trans_eq hlibera.symm))

theorem lugares_libera {ok : Bool}
    (h : Lugares ⟨k, l ++ (programa c).origen (.gestorLibera q ok) :: r⟩) :
    Lugares ⟨(programa c).efecto k (.gestorLibera q ok),
      l ++ ((programa c).destino k (.gestorLibera q ok) ++ r)⟩ := by
  have hx : 0 < veces ⟨k, l ++ (programa c).origen (.gestorLibera q ok) :: r⟩ q (.mano .libera) :=
    veces_origen List.mem_cons_self
  obtain ⟨e₀, he₀, -, -⟩ := (h.lugar q).sitio hx
  have hvivo : ¬ (k.pcbs q).isNone := by
    intro hnone
    have he₀ : estadoDe k q = some e₀ := he₀
    rw [estadoDe, Option.isNone_iff_eq_none.mp hnone] at he₀
    cases he₀
  have hefecto : ((programa c).efecto k (.gestorLibera q ok)).colas = k.colas ∧
      ((programa c).efecto k (.gestorLibera q ok)).pcbs = Function.update k.pcbs q none ∧
      ((programa c).efecto k (.gestorLibera q ok)).ultimoPid = k.ultimoPid := by
    dsimp only [programa, transicion]
    rw [if_neg hvivo]
    cases ok <;> exact ⟨rfl, rfl, rfl⟩
  exact h.suelta rfl rfl rfl rfl hefecto.1 hefecto.2.1 hefecto.2.2

theorem lugares_toma (h : Lugares ⟨k, l ++ (programa c).origen .gestorToma :: r⟩) (hP : Pids k) :
    Lugares ⟨(programa c).efecto k .gestorToma,
      l ++ ((programa c).destino k .gestorToma ++ r)⟩ := by
  dsimp only [programa, transicion]
  split
  · exact h.quieto (fun _ _ => rfl) (.refl _) (fun _ => rfl) (Int.le_refl _) rfl
  · next q resto hexit =>
      have hq : q ∈ k.colas .exit := hexit ▸ List.mem_cons_self
      have hcolas : Function.update k.colas .exit resto = (k.quitar .exit q).colas := by
        rw [Kernel.quitar, hexit, List.erase_cons_head]
      obtain ⟨e₀, he₀, -, -⟩ := (h.lugar q).sitio (veces_cola hq)
      have he₀ : estadoDe k q = some e₀ := he₀
      have hest := estado_puesto (k := k) (q := q) (e := .exit)
        (t := { k with colas := Function.update k.colas .exit resto }) rfl fun _ => rfl
      refine h.muda hP (veces_cola hq) (pasa_sacar hq hcolas .libera) (entrega_toma rfl rfl) hest.1
        ⟨.exit, ?_, trivial⟩ (Int.le_refl _) rfl ?_ ?_ (fun _ => rfl) ?_
      · rw [hest.2, he₀]
        rfl
      · intro e p hp
        cases hp
      · intro hc
        cases hc
      · intro hc
        cases hc

theorem planificar_elegido :
    ((∀ e p, ((planificarCortoPlazo c k).colas e).count p = (k.colas e).count p) ∧
      (planificarCortoPlazo c k).pcbs = k.pcbs) ∨
    ∃ pcb resto i cpu, ordenReady c k = pcb :: resto ∧ cpuPlanificada c k = some cpu ∧
      planificarCortoPlazo c k = despachado k pcb resto i cpu := by
  rw [planificarCortoPlazo, cpuPlanificada]
  split
  · exact Or.inl ⟨fun _ _ => rfl, rfl⟩
  split
  · exact Or.inl ⟨fun _ _ => rfl, rfl⟩
  split
  · exact Or.inl ⟨fun _ _ => rfl, rfl⟩
  · next pcb resto horden =>
      split
      · refine Or.inl ⟨fun e p => ?_, rfl⟩
        by_cases he : e = .ready
        · subst he
          simp only [Kernel.postReady, Function.update_self, ← horden]
          exact ordenReady_perm.count_eq p
        · simp only [Kernel.postReady, Function.update_of_ne he]
      · next i cpu hlibre =>
          exact Or.inr ⟨pcb, resto, i, cpu, horden, congrArg (Option.map Prod.snd) hlibre,
            enviarPcb_despachado k pcb resto i cpu⟩

theorem lugares_planifica (h : Lugares ⟨k, l ++ (programa c).origen .cortoPlanifica :: r⟩)
    (hP : Pids k)
    (hsin : ∀ q, (cpuPlanificada c k).isSome → (ordenReady c k).head? = some q →
      (.ready, q) ∉ (l ++ (programa c).origen .cortoPlanifica :: r).filterMap debe) :
    Lugares ⟨(programa c).efecto k .cortoPlanifica,
      l ++ ((programa c).destino k .cortoPlanifica ++ r)⟩ := by
  rcases planificar_elegido (c := c) (k := k) with ⟨hcolas, hpcbs⟩ | ⟨pcb, resto, i, cpu, horden,
      hcpu, heq⟩
  · exact h.quieto hcolas (.refl _) (fun p => estadoDe_congr (congrFun hpcbs p))
      ultimoPid_efecto rfl
  · have hq : pcb ∈ k.colas .ready := ordenReady_perm.subset (horden ▸ List.mem_cons_self)
    have hefecto : (programa c).efecto k .cortoPlanifica = despachado k pcb resto i cpu := heq
    rw [hefecto]
    have hpasa : Pasa k (despachado k pcb resto i cpu) pcb (.cola .ready) (.cola .running) := by
      intro e p
      have hcuenta : (k.colas .ready).count p = resto.count p + if pcb = p then 1 else 0 := by
        rw [← (ordenReady_perm (c := c)).count_eq, horden, List.count_cons]
        simp
      cases e <;> simp [despachado, List.count_singleton]
      omega
    have hest : (∀ p, p ≠ pcb → estadoDe (despachado k pcb resto i cpu) p = estadoDe k p) ∧
        estadoDe (despachado k pcb resto i cpu) pcb = (estadoDe k pcb).map fun _ => .running :=
      estado_puesto_en (f := alDespachar k.reloj) rfl fun b =>
        Pcb.estado_cambiarEstado k.reloj .running b
    refine h.pasa hP hq hpasa hest (Int.le_refl _) rfl rfl rfl rfl (by decide) fun _ => ?_
    exact hsin pcb (by rw [hcpu]; rfl) (by rw [horden]; rfl)

theorem lugares_admite {susp ok : Bool}
    (h : Lugares ⟨k, l ++ (programa c).origen (.largoResuelve q susp ok) :: r⟩)
    (hP : Pids k) (hhead : (k.colas (colaDe susp)).head? = some q) :
    Lugares ⟨(programa c).efecto k (.largoResuelve q susp ok),
      l ++ ((programa c).destino k (.largoResuelve q susp ok) ++ r)⟩ := by
  cases ok with
  | false => exact h.quieto (fun _ _ => rfl) (.refl _) (fun _ => rfl) (Int.le_refl _) rfl
  | true =>
    obtain ⟨e, i, hadmitir, -⟩ := admitir_eq c k q susp
    have hefecto : (programa c).efecto k (.largoResuelve q susp true) = admitir c k q susp := rfl
    rw [hefecto, hadmitir]
    have hq : q ∈ k.colas (colaDe susp) := List.mem_of_mem_head? hhead
    obtain ⟨resto, hresto⟩ := List.head?_eq_some_iff.mp hhead
    have hquita : Function.update k.colas (colaDe susp) (k.colas (colaDe susp)).tail =
        (k.quitar (colaDe susp) q).colas := by
      rw [Kernel.quitar, hresto, List.erase_cons_head, List.tail_cons]
    have hready : (k.quitar (colaDe susp) q).colas .ready = k.colas .ready := by
      rw [Kernel.colas_quitar]
      cases susp <;> rfl
    have hcolas : Function.update (Function.update k.colas (colaDe susp)
        (k.colas (colaDe susp)).tail) .ready
        (k.colas .ready ++ [q]) = ((k.quitar (colaDe susp) q).agregar .ready q).colas := by
      rw [hquita, Kernel.agregar, hready]
    refine h.pasa hP hq (pasa_mover hq hcolas)
      (estado_puesto_en rfl (Pcb.estado_cambiarEstado k.reloj .ready))
        (Int.le_refl _) rfl rfl rfl rfl ?_ ?_
    · cases susp <;> decide
    · intro hc
      cases susp <;> cases hc

/-- The process is blocked, suspended or not. -/
def EnEspera (k : Kernel) (p : ℤ) : Prop :=
  estadoDe k p = some .blocked ∨ estadoDe k p = some .suspendedBlocked

theorem EnEspera.estado (h : EnEspera k p) :
    ∃ e, estadoDe k p = some e ∧ (e = .blocked ∨ e = .suspendedBlocked) := by
  rcases h with he | he
  · exact ⟨_, he, Or.inl rfl⟩
  · exact ⟨_, he, Or.inr rfl⟩

/-- What a handler does to the process that it finds by its PID: nothing, or to move it from the
queue of its state to another. -/
def Traslada (k k' : Kernel) (pid : ℤ) (pares : List (Estado × Estado)) : Prop :=
  k'.colas = k.colas ∧ k'.pcbs = k.pcbs ∨
    ∃ q e e', buscarPcbPorPid k pid = some (some q) ∧ estadoDe k q = some e ∧ (e, e') ∈ pares ∧
      k'.colas = ((k.quitar e q).agregar e' q).colas ∧ k'.pcbs = (k.cambiarEstado q e').pcbs

/-- Out of the two queues of the processes that wait. -/
def despertares : List (Estado × Estado) :=
  [(.blocked, .ready), (.suspendedBlocked, .suspendedReady)]

theorem traslada_terminarDump (pid : ℤ) : Traslada k (terminarDump k pid) pid despertares := by
  rw [terminarDump]
  split
  · exact Or.inl ⟨rfl, rfl⟩
  · exact Or.inl ⟨rfl, rfl⟩
  · next q hbusca =>
      split
      · next he => exact Or.inr ⟨q, _, _, hbusca, he, List.mem_cons_self, rfl, rfl⟩
      split
      · next he =>
          exact Or.inr ⟨q, _, _, hbusca, he, List.mem_cons_of_mem _ List.mem_cons_self, rfl, rfl⟩
      · exact Or.inl ⟨rfl, rfl⟩

theorem traslada_despertarDeIo (pid : ℤ) : Traslada k (despertarDeIo c k pid) pid despertares := by
  rw [despertarDeIo]
  split
  · exact Or.inl ⟨rfl, rfl⟩
  · exact Or.inl ⟨rfl, rfl⟩
  · next q hbusca =>
      split
      · next he =>
          refine Or.inr ⟨q, _, _, hbusca, he, List.mem_cons_self, ?_, ?_⟩
          · exact colas_desalojar (k := desbloquear k q) q
          · exact congrArg VistaPcbs.pcbs (vistaPcbs_desalojar c (desbloquear k q) q)
      split
      · next he =>
          exact Or.inr ⟨q, _, _, hbusca, he, List.mem_cons_of_mem _ List.mem_cons_self, rfl, rfl⟩
      · exact Or.inl ⟨rfl, rfl⟩

theorem traslada_vence (pid desde : ℤ) (bloqueo : ℕ) :
    Traslada k ((programa c).efecto k (.suspensionVence pid desde bloqueo)) pid
      [(.blocked, .suspendedBlocked)] := by
  dsimp only [programa, transicion]
  split
  · exact Or.inl ⟨rfl, rfl⟩
  · exact Or.inl ⟨rfl, rfl⟩
  · next q hbusca =>
      split
      · next he => exact Or.inr ⟨q, _, _, hbusca, he, List.mem_cons_self, rfl, rfl⟩
      · exact Or.inl ⟨rfl, rfl⟩

theorem Lugares.traslada {k' : Kernel} {o : Hilo} {ds : List Hilo} {pid : ℤ}
    {pares : List (Estado × Estado)}
    (h : Lugares ⟨k, l ++ o :: r⟩) (hP : Pids k) (hk' : Traslada k k' pid pares)
    (hpares : ∀ x ∈ pares, x.1 = .blocked ∨ x.1 = .suspendedBlocked)
    (hult : k.ultimoPid ≤ k'.ultimoPid)
    (ho : toca o = []) (hds : ds.flatMap toca = []) (hdo : debe o = none)
    (hdd : ds.filterMap debe = []) :
    Lugares ⟨k', l ++ (ds ++ r)⟩ := by
  rcases hk' with ⟨hcolas, hpcbs⟩ | ⟨q, e, e', hbusca, he, hpar, hcolas, hpcbs⟩
  · refine h.quieto (fun e p => ?_) ?_ (fun p => estadoDe_congr (congrFun hpcbs p)) hult ?_
    · rw [hcolas]
    · rw [ho, hds]
    · rw [hdd, List.filterMap_cons_none hdo, List.filterMap_nil]
  · have hno : e ≠ .running ∧ e ≠ .exit ∧ e ≠ .ready := by
      rcases hpares _ hpar with rfl | rfl <;> decide
    have hq : q ∈ k.colas e := (h.lugar q).buscado hbusca he hno.1
    exact h.pasa hP hq (pasa_mover hq hcolas) (estado_puesto hpcbs fun _ => rfl) hult ho hds hdo hdd
      hno.2.1 fun heq => absurd heq hno.2.2

theorem lugares_vence {pid desde : ℤ} {bloqueo : ℕ}
    (h : Lugares ⟨k, l ++ (programa c).origen (.suspensionVence pid desde bloqueo) :: r⟩)
    (hP : Pids k) :
    Lugares ⟨(programa c).efecto k (.suspensionVence pid desde bloqueo),
      l ++ ((programa c).destino k (.suspensionVence pid desde bloqueo) ++ r)⟩ := by
  have hnadie : ∀ d ∈ (programa c).destino k (.suspensionVence pid desde bloqueo), toca d = [] ∧
      debe d = none := by
    dsimp only [programa, transicion]
    repeat' split
    all_goals simp [toca, debe]
  refine h.traslada hP (traslada_vence pid desde bloqueo) ?_ ultimoPid_efecto rfl ?_ rfl ?_
  · simp
  · exact List.flatMap_eq_nil_iff.mpr fun d hd => (hnadie d hd).1
  · exact List.filterMap_eq_nil_iff.mpr fun d hd => (hnadie d hd).2

theorem lugares_terminaIo {fd terminadas : ℕ} {nombre : List Byte} {pid : ℤ}
    (h : Lugares ⟨k, l ++ (programa c).origen (.ioTermina fd nombre terminadas pid) :: r⟩)
    (hP : Pids k) :
    Lugares ⟨(programa c).efecto k (.ioTermina fd nombre terminadas pid),
      l ++ ((programa c).destino k (.ioTermina fd nombre terminadas pid) ++ r)⟩ := by
  have htraslada : Traslada k ((programa c).efecto k (.ioTermina fd nombre terminadas pid)) pid
      despertares := by
    dsimp only [programa, transicion, manejarFinIo]
    split
    · exact Or.inl ⟨rfl, rfl⟩
    · exact traslada_despertarDeIo pid
  exact h.traslada hP htraslada (by decide) ultimoPid_efecto rfl rfl rfl rfl

theorem quitarBloqueado_de {e : Estado} (he : estadoDe k q = some e)
    (hespera : e = .blocked ∨ e = .suspendedBlocked) : quitarBloqueado k q = k.quitar e q := by
  rcases hespera with rfl | rfl
  · rw [quitarBloqueado, he]
    rfl
  · rw [quitarBloqueado, he]
    rfl

theorem lugares_resuelve {ok : Bool}
    (h : Lugares ⟨k, l ++ (programa c).origen (.dumpResuelve p ok) :: r⟩)
    (hP : Pids k) (hespera : EnEspera k p) :
    Lugares ⟨(programa c).efecto k (.dumpResuelve p ok),
      l ++ ((programa c).destino k (.dumpResuelve p ok) ++ r)⟩ := by
  obtain ⟨b, hb⟩ : ∃ b, k.pcbs p = some b := by
    obtain ⟨e, he, -⟩ := hespera.estado
    obtain ⟨b, hb, -⟩ := Option.map_eq_some_iff.mp he
    exact ⟨b, hb⟩
  have hpid : b.pid = p := hP.propios p b hb
  cases ok with
  | true =>
    have hefecto : (programa c).efecto k (.dumpResuelve p true) = terminarDump k p := by
      dsimp only [programa, transicion, resolverDump]
      rw [hb]
      dsimp only
      rw [hpid, if_pos rfl]
    have hdestino : (programa c).destino k (.dumpResuelve p true) = [] := by
      dsimp only [programa, transicion, trasDump]
      split <;> rfl
    have hult : k.ultimoPid ≤ ((programa c).efecto k (.dumpResuelve p true)).ultimoPid :=
        ultimoPid_efecto
    rw [hefecto] at hult ⊢
    rw [hdestino]
    exact h.traslada hP (traslada_terminarDump p) (by decide) hult rfl rfl rfl rfl
  | false =>
    dsimp only [programa, transicion, resolverDump, trasDump]
    rw [hb, Option.bind_some]
    dsimp only
    rw [hpid]
    cases hbusca : buscarPcbPorPid k p with
    | none => exact h.quieto (fun _ _ => rfl) (.refl _) (fun _ => rfl) (Int.le_refl _) rfl
    | some q =>
      cases q with
      | none => exact h.quieto (fun _ _ => rfl) (.refl _) (fun _ => rfl) (Int.le_refl _) rfl
      | some q =>
        have hqp : q = p := buscarEnCola_eq hbusca
        subst hqp
        obtain ⟨e, he, hesp⟩ := hespera.estado
        have hno : e ≠ .running ∧ e ≠ .exit ∧ e ≠ .ready := by
          rcases hesp with rfl | rfl <;> decide
        have hq : q ∈ k.colas e := (h.lugar q).buscado hbusca he hno.1
        have hest := estado_puesto (k := k) (q := q) (e := .exit)
            (t := k.quitar e q) rfl fun _ => rfl
        dsimp only
        rw [quitarBloqueado_de he hesp]
        refine h.muda hP (veces_cola hq) (pasa_sacar hq rfl .entrega) (entrega_toma rfl rfl) hest.1
          ⟨.exit, hest.2.trans (by rw [he]; rfl), rfl⟩ (Int.le_refl _) rfl nofun ?_ ?_ nofun
        · exact fun heq => absurd (Lugar.cola.inj heq) hno.2.2
        · exact fun heq => absurd (Lugar.cola.inj heq) hno.2.1

theorem lugares_cambiaReady
    (h : Lugares ⟨k, l ++ (programa c).origen (.escuchaCambiaReady cpu q) :: r⟩) :
    Lugares ⟨(programa c).efecto k (.escuchaCambiaReady cpu q),
      l ++ ((programa c).destino k (.escuchaCambiaReady cpu q) ++ r)⟩ := by
  have hmem : (.ready, q) ∈ (l ++ (programa c).origen (.escuchaCambiaReady cpu q) :: r).filterMap
      debe := by
    refine List.mem_filterMap.mpr ⟨_, List.mem_append_right _ List.mem_cons_self, rfl⟩
  exact h.cambia (e := .ready) rfl rfl rfl rfl rfl (estado_puesto rfl fun _ => rfl) rfl
    (Or.inr (Or.inl (h.entrantes q hmem)))

theorem lugares_cambiaExit
    (h : Lugares ⟨k, l ++ (programa c).origen (.escuchaCambiaExit cpu q) :: r⟩) :
    Lugares ⟨(programa c).efecto k (.escuchaCambiaExit cpu q),
      l ++ ((programa c).destino k (.escuchaCambiaExit cpu q) ++ r)⟩ := by
  have hmem : (.exit, q) ∈ (l ++ (programa c).origen (.escuchaCambiaExit cpu q) :: r).filterMap
      debe := by
    refine List.mem_filterMap.mpr ⟨_, List.mem_append_right _ List.mem_cons_self, rfl⟩
  exact h.cambia (e := .exit) rfl rfl rfl rfl rfl (estado_puesto rfl fun _ => rfl) rfl
    (h.salientes q hmem).2

theorem lugares_responde {fd : ℕ} {pid pc : ℤ} {m : Motivo}
    (h : Lugares ⟨k, l ++ (programa c).origen (.recibeRespuesta cpu fd pid pc m) :: r⟩)
    (hP : Pids k)
    (hcpu : ∀ q, (k.cpus cpu).pcbEnEjecucion = some q → q ∈ k.colas .running) :
    Lugares ⟨(programa c).efecto k (.recibeRespuesta cpu fd pid pc m),
      l ++ ((programa c).destino k (.recibeRespuesta cpu fd pid pc m) ++ r)⟩ := by
  dsimp only [programa, transicion, recibirRespuesta, trasRespuesta]
  cases hpcb : (k.cpus cpu).pcbEnEjecucion with
  | none => exact h.quieto (fun _ _ => rfl) (.refl _) (fun _ => rfl) (Int.le_refl _) rfl
  | some q =>
    dsimp only
    cases hb : k.pcbs q with
    | none => exact h.quieto (fun _ _ => rfl) (.refl _) (fun _ => rfl) (Int.le_refl _) rfl
    | some b =>
      dsimp only
      by_cases hpid : b.pid = pid
      · have hest : ∀ p, estadoDe ((((recibir k fd).conPcb q
            (actualizarRafaga c k.reloj pc m)).quitar .running q)) p = estadoDe k p := fun p =>
          estadoDe_conPcb (k := recibir k fd) (actualizar_estado c k.reloj pc m)
        rw [if_neg (not_not.mpr hpid), if_neg (not_not.mpr hpid)]
        refine h.saca (z := .maneja) hP (hcpu q hpcb) rfl (fun p _ => hest p)
          (fun he => ⟨.running, (hest q).trans he, rfl⟩) (Int.le_refl _) rfl ?_ rfl ?_
        · cases m <;> rfl
        · cases m <;> rfl
      · rw [if_pos hpid, if_pos hpid]
        exact h.saca (z := .maneja) hP (hcpu q hpcb) rfl (fun p _ => rfl)
          (fun he => ⟨.running, he, rfl⟩) (Int.le_refl _) rfl rfl rfl rfl

theorem lugares_otro {fd : ℕ} (h : Lugares ⟨k, l ++ (programa c).origen (.recibeOtro cpu fd) :: r⟩)
    (hP : Pids k) (hcpu : ∀ q, (k.cpus cpu).pcbEnEjecucion = some q → q ∈ k.colas .running) :
    Lugares ⟨(programa c).efecto k (.recibeOtro cpu fd),
      l ++ ((programa c).destino k (.recibeOtro cpu fd) ++ r)⟩ := by
  dsimp only [programa, transicion]
  cases hpcb : (k.cpus cpu).pcbEnEjecucion with
  | none => exact h.quieto (fun _ _ => rfl) (.refl _) (fun _ => rfl) (Int.le_refl _) rfl
  | some q =>
    exact h.saca (z := .maneja) hP (hcpu q hpcb) rfl (fun p _ => rfl)
      (fun he => ⟨.running, he, rfl⟩) (Int.le_refl _) rfl rfl rfl rfl

theorem lugares_revisa (h : Lugares ⟨k, l ++ (programa c).origen (.escuchaRevisa cpu) :: r⟩)
    (hP : Pids k) (hcpu : ∀ q, (k.cpus cpu).pcbEnEjecucion = some q → q ∈ k.colas .running) :
    Lugares ⟨(programa c).efecto k (.escuchaRevisa cpu),
      l ++ ((programa c).destino k (.escuchaRevisa cpu) ++ r)⟩ := by
  dsimp only [programa, transicion]
  cases hpcb : (k.cpus cpu).pcbEnEjecucion with
  | none => exact h.quieto (fun _ _ => rfl) (.refl _) (fun _ => rfl) (Int.le_refl _) rfl
  | some q =>
    have hest := estado_puesto (k := k) (q := q) (e := .exit)
        (t := k.quitar .running q) rfl fun _ => rfl
    exact h.saca (z := .entrega) hP (hcpu q hpcb) rfl hest.1
      (fun he => ⟨.exit, hest.2.trans (by rw [he]; rfl), rfl⟩) (Int.le_refl _) rfl rfl rfl rfl

/-- From the hands of a thread to `cola_blocked`, with its state. -/
theorem Lugares.bloquea {k' : Kernel} {o : Hilo} {ds : List Hilo} (h : Lugares ⟨k, l ++ o :: r⟩)
    (hP : Pids k)
    (ho : toca o = [(.maneja, q)]) (hds : ds.flatMap toca = []) (hdo : debe o = none)
    (hdd : ds.filterMap debe = []) (hcolas : k'.colas =
      ((k.quitar .running q).agregar .blocked q).colas)
    (hest : (∀ p, p ≠ q → estadoDe k' p = estadoDe k p) ∧
      estadoDe k' q = (estadoDe k q).map fun _ => .blocked)
    (hult : k'.ultimoPid = k.ultimoPid) : Lugares ⟨k', l ++ (ds ++ r)⟩ := by
  have hx : 0 < veces ⟨k, l ++ o :: r⟩ q (.mano .maneja) := veces_origen (ho ▸ List.mem_cons_self)
  obtain ⟨e₀, he₀, -, -⟩ := (h.lugar q).sitio hx
  have he₀ : estadoDe k q = some e₀ := he₀
  have hfuera : q ∉ k.colas .running := (h.lugar q).sin_cola hx .running
  refine h.muda hP hx (pasa_entrar hfuera hcolas .maneja) (entrega_deja ho hds) hest.1
    ⟨.blocked, hest.2.trans (by rw [he₀]; rfl), Or.inl rfl⟩ hult.ge hdo ?_ nofun nofun nofun
  rw [hdd]
  exact nofun

/-- A process that a thread has in its hands is not in `cola_exec`. -/
theorem Lugares.no_quita {k' : Kernel} {o : Hilo} {ds : List Hilo} (h : Lugares ⟨k, l ++ o :: r⟩)
    (ho : toca o = [(.maneja, q)]) (hds : ds.flatMap toca = [(.maneja, q)])
    (hdebe : ds.filterMap debe = [o].filterMap debe) (hk' : k' = k.quitar .running q) :
    Lugares ⟨k', l ++ (ds ++ r)⟩ := by
  have hx : 0 < veces ⟨k, l ++ o :: r⟩ q (.mano .maneja) := veces_origen (ho ▸ List.mem_cons_self)
  have hfuera : q ∉ k.colas .running := (h.lugar q).sin_cola hx .running
  subst hk'
  refine h.quieto (fun e p => ?_) (.of_eq (hds.trans ho.symm)) (fun _ => rfl) (Int.le_refl _) hdebe
  rw [Kernel.colas_quitar]
  split
  · next heq => rw [heq, List.erase_of_not_mem hfuera]
  · rfl

theorem lugares_bloquea {dispositivo : List Byte} {duracion : ℤ}
    (h : Lugares ⟨k, l ++ (programa c).origen (.escuchaBloquea cpu q dispositivo duracion) :: r⟩)
    (hP : Pids k) :
    Lugares ⟨(programa c).efecto k (.escuchaBloquea cpu q dispositivo duracion),
      l ++ ((programa c).destino k (.escuchaBloquea cpu q dispositivo duracion) ++ r)⟩ := by
  dsimp only [programa, transicion]
  split
  · exact h.no_quita rfl rfl rfl rfl
  · have hest : ∀ p, estadoDe ((k.quitar .running q).conPcb q fun b =>
        { b with tiempoBloqueoIo := duracion }) p = estadoDe k p := fun p =>
      estadoDe_conPcb (k := k.quitar .running q) fun _ => rfl
    exact h.bloquea hP rfl rfl rfl rfl rfl (estado_puesto rfl hest) rfl

theorem lugares_bloqueaDump
    (h : Lugares ⟨k, l ++ (programa c).origen (.escuchaBloqueaDump cpu q) :: r⟩)
    (hP : Pids k) :
    Lugares ⟨(programa c).efecto k (.escuchaBloqueaDump cpu q),
      l ++ ((programa c).destino k (.escuchaBloqueaDump cpu q) ++ r)⟩ :=
  h.bloquea hP rfl rfl rfl rfl rfl
    (estado_puesto (t := (k.quitar .running q).agregar .blocked q) rfl fun _ => rfl) rfl

/-- A process is born. -/
theorem Lugares.nace {k' : Kernel} {o : Hilo} {ds : List Hilo} {b : Pcb}
    (h : Lugares ⟨k, l ++ o :: r⟩)
    (hP : Pids k) (ho : toca o = []) (hds : ds.flatMap toca = []) (hdo : debe o = none)
    (hdd : ds.filterMap debe = []) (hcolas : k'.colas = (k.agregar .new k.ultimoPid).colas)
    (hpcbs : k'.pcbs = Function.update k.pcbs k.ultimoPid (some b)) (hb : b.estado = .new)
    (hult : k'.ultimoPid = k.ultimoPid + 1) : Lugares ⟨k', l ++ (ds ++ r)⟩ := by
  have hveces : ∀ p z, veces ⟨k', l ++ (ds ++ r)⟩ p z =
      veces ⟨k, l ++ o :: r⟩ p z + if z = .cola .new ∧ k.ultimoPid = p then 1 else 0 := by
    intro p z
    cases z with
    | cola e =>
      have hcuenta := count_agregar (k := k) (q := k.ultimoPid) (p := p) (e := .new) e
      rw [← hcolas] at hcuenta
      simpa [veces] using hcuenta
    | mano z => simp [veces, ho, hds]
  have hest : ∀ p, p ≠ k.ultimoPid → estadoDe k' p = estadoDe k p := by
    intro p hp
    apply estadoDe_congr
    rw [hpcbs, Function.update_of_ne hp]
  have hnuevo : estadoDe k' k.ultimoPid = some .new := by
    rw [estadoDe, hpcbs, Function.update_self, Option.map_some, hb]
  have hnadie : ∀ z, veces ⟨k, l ++ o :: r⟩ k.ultimoPid z = 0 := by
    rcases h.lugar k.ultimoPid with ⟨-, hcero⟩ | ⟨x, e, he, -⟩
    · exact hcero
    · have he : estadoDe k k.ultimoPid = some e := he
      rw [estadoDe, hP.nuevos _ (Int.le_refl _)] at he
      cases he
  have hsigue : ∀ x, x ∈ (l ++ (ds ++ r)).filterMap debe ↔ x ∈ (l ++ o :: r).filterMap debe := by
    intro x
    rw [debe_medio, hdd, debe_otros hdo]
    simp only [List.not_mem_nil, false_or]
  have hotro : ∀ p, p ≠ k.ultimoPid → ∀ z,
      veces ⟨k', l ++ (ds ++ r)⟩ p z = veces ⟨k, l ++ o :: r⟩ p z := by
    intro p hp z
    rw [hveces, if_neg fun hc => hp hc.2.symm, Nat.add_zero]
  constructor
  · intro p
    by_cases hp : p = k.ultimoPid
    · subst hp
      refine Or.inr ⟨.cola .new, .new, hnuevo, fun z => ?_, Or.inl rfl⟩
      rw [hveces, hnadie]
      simp
    · exact (h.lugar p).igual (hotro p hp) (hest p hp) fun e he => (hsigue _).mpr he
  · intro p hp
    rw [hveces]
    exact (h.entrantes p ((hsigue _).mp hp)).trans_le (Nat.le_add_right _ _)
  · intro p hp
    obtain ⟨hlt, hsale⟩ := h.salientes p ((hsigue _).mp hp)
    have hlt : p < k.ultimoPid := hlt
    rw [hotro p hlt.ne, hotro p hlt.ne]
    refine ⟨?_, hsale.imp_left fun hnone => (hest p hlt.ne).trans hnone⟩
    have hult : (⟨k', l ++ (ds ++ r)⟩ : Sistema Kernel Hilo).comun.ultimoPid =
        k.ultimoPid + 1 := hult
    omega

theorem crear_datos (k : Kernel) (c : ConfigKernel) (path : List Byte) (tamanio : ℤ)
    (absoluto : Option (List Byte)) : ∃ b : Pcb,
    (crearPcb c k path tamanio absoluto).colas = (k.agregar .new k.ultimoPid).colas ∧
      (crearPcb c k path tamanio absoluto).pcbs = Function.update k.pcbs k.ultimoPid (some b) ∧
      (crearPcb c k path tamanio absoluto).ultimoPid = k.ultimoPid + 1 ∧
      b.estado = .new ∧ b.pid = k.ultimoPid := by
  rw [crearPcb]
  split <;> exact ⟨_, rfl, rfl, rfl, rfl, rfl⟩

theorem lugares_crea {fd : ℕ} {path : List Byte} {tamanio : ℤ} {absoluto : Option (List Byte)}
    (h : Lugares ⟨k, l ++ (programa c).origen (.recibeInitProc cpu fd path tamanio absoluto) :: r⟩)
    (hP : Pids k) :
    Lugares ⟨(programa c).efecto k (.recibeInitProc cpu fd path tamanio absoluto),
      l ++ ((programa c).destino k (.recibeInitProc cpu fd path tamanio absoluto) ++ r)⟩ := by
  obtain ⟨e, hefecto⟩ := initProc_igual (c := c) (k := k) cpu fd path tamanio absoluto
  obtain ⟨b, hcolas, hpcbs, hult, hb, -⟩ := crear_datos (recibir k fd) c path tamanio absoluto
  rw [hefecto]
  exact h.nace hP rfl rfl rfl rfl hcolas hpcbs hb hult

/-- `manejar_desconexion_io` takes out of their queues the processes that it finalises. -/
theorem lugares_vacia {sols : List Solicitud} {ps : List ℤ}
    (h : Lugares ⟨k, l ++ .ioFinaliza ps :: r⟩)
    (hP : Pids k) (hespera : ∀ sol ∈ sols, EnEspera k sol.pid) :
    Lugares ⟨(vaciarEspera sols k).1, l ++ .ioFinaliza (ps ++ (vaciarEspera sols k).2) :: r⟩ := by
  induction sols generalizing k ps with
  | nil =>
    rw [vaciarEspera, List.append_nil]
    exact h
  | cons sol sols ih =>
    rw [vaciarEspera]
    split
    · rw [List.append_nil]
      have hroto : Lugares ⟨k.roto, l ++ ([.ioFinaliza ps] ++ r)⟩ :=
        h.quieto (fun _ _ => rfl) (.of_eq (List.append_nil _)) (fun _ => rfl) (Int.le_refl _) rfl
      exact hroto
    · exact ih h hP fun x hx => hespera x (List.mem_cons_of_mem _ hx)
    · next q hbusca =>
        have hq : q = sol.pid := buscarEnCola_eq hbusca
        subst hq
        obtain ⟨e, he, hesp⟩ := (hespera sol List.mem_cons_self).estado
        have hno : e ≠ .running ∧ e ≠ .exit ∧ e ≠ .ready := by
          rcases hesp with rfl | rfl <;> decide
        have hmem : sol.pid ∈ k.colas e := (h.lugar sol.pid).buscado hbusca he hno.1
        dsimp only
        rw [quitarBloqueado_de he hesp]
        have hentrega : Entrega (.ioFinaliza ps) [.ioFinaliza (ps ++ [sol.pid])] sol.pid (.cola e)
            (.mano .finaliza) := by
          intro z p
          simp only [List.flatMap_singleton, toca, List.map_append, List.map_cons, List.map_nil,
            List.count_append, List.count_singleton, beq_iff_eq, Prod.mk.injEq, Lugar.mano.injEq,
            reduceCtorEq, false_and, if_false, eq_comm (a := z)]
          omega
        have hmovido : Lugares ⟨k.quitar e sol.pid,
            l ++ ([.ioFinaliza (ps ++ [sol.pid])] ++ r)⟩ := by
          refine h.muda hP (veces_cola hmem) (pasa_sacar hmem rfl .finaliza) hentrega
            (fun _ _ => rfl)
            ⟨e, he, trivial⟩ (Int.le_refl _) rfl ?_ ?_ ?_ ?_
          · intro e p hp
            cases hp
          · exact fun heq => absurd (Lugar.cola.inj heq) hno.2.2
          · exact fun heq => absurd (Lugar.cola.inj heq) hno.2.1
          · intro hc
            cases hc
        have hresto := ih hmovido ⟨hP.propios, hP.nuevos⟩ fun x hx =>
            hespera x (List.mem_cons_of_mem _ hx)
        rw [List.append_assoc] at hresto
        exact hresto

theorem lugares_desconecta {fd terminadas : ℕ} {nombre : List Byte}
    (h : Lugares ⟨k, l ++ (programa c).origen (.ioDesconecta fd nombre terminadas) :: r⟩)
    (hP : Pids k)
    {sols : List Solicitud} {k' : Kernel}
    (hk' : manejarDesconexionIo k nombre fd = (k', (vaciarEspera sols k).2))
    (hcolas : k'.colas = (vaciarEspera sols k).1.colas) (hpcbs : k'.pcbs = k.pcbs)
    (hespera : ∀ sol ∈ sols, EnEspera k sol.pid) :
    Lugares ⟨(programa c).efecto k (.ioDesconecta fd nombre terminadas),
      l ++ ((programa c).destino k (.ioDesconecta fd nombre terminadas) ++ r)⟩ := by
  have hsin : Lugares ⟨k, l ++ ([.ioFinaliza []] ++ r)⟩ :=
    h.quieto (fun _ _ => rfl) (.refl _) (fun _ => rfl) (Int.le_refl _) rfl
  have hvacia := lugares_vacia hsin hP hespera
  obtain ⟨_, _, heq⟩ := vaciarEspera_eq k sols
  have hult : k.ultimoPid ≤ ((programa c).efecto k
      (.ioDesconecta fd nombre terminadas)).ultimoPid :=
    ultimoPid_efecto
  dsimp only [programa, transicion] at hult ⊢
  rw [hk'] at hult ⊢
  refine hvacia.quieto (fun e p => ?_) (.of_eq (List.append_nil _))
    (fun p => estadoDe_congr ?_) ?_ rfl
  · rw [hcolas]
  · rw [hpcbs, heq]
  · rw [heq]
    exact hult

/-- A step that does not leave a process in two places, or with the state of another: no dump
fails to connect, no process goes to a CPU before the thread that put it in `cola_ready` has
changed its state, and a CPU answers for a process in `cola_exec`. -/
def limpio (c : ConfigKernel) (k : Kernel) (hs : List Hilo) : Accion → Bool
  | .dumpFallaConexion _ => false
  | .cortoPlanifica => (cpuPlanificada c k).isNone ||
      (ordenReady c k).head?.all fun q => decide ((.ready, q) ∉ hs.filterMap debe)
  | .recibeRespuesta cpu _ _ _ _ | .recibeOtro cpu _ | .escuchaRevisa cpu =>
      (k.cpus cpu).pcbEnEjecucion.all fun q => decide (q ∈ k.colas .running)
  | _ => true

theorem lugares_paso (h : Lugares ⟨k, l ++ (programa c).origen a :: r⟩) (hP : Pids k)
    (hord : limpio c k (l ++ (programa c).origen a :: r) a = true)
    (hcandidato : ∀ q susp ok, a = .largoResuelve q susp ok →
      (k.colas (colaDe susp)).head? = some q)
    (hdump : ∀ q ok, a = .dumpResuelve q ok → EnEspera k q)
    (hio : ∀ fd nombre t, a = .ioDesconecta fd nombre t → ∃ sols k',
      manejarDesconexionIo k nombre fd = (k', (vaciarEspera sols k).2) ∧
        k'.colas = (vaciarEspera sols k).1.colas ∧ k'.pcbs = k.pcbs ∧
          ∀ sol ∈ sols, EnEspera k sol.pid) :
    Lugares ⟨(programa c).efecto k a, l ++ ((programa c).destino k a ++ r)⟩ := by
  have hcpu : ∀ {cpu}, (k.cpus cpu).pcbEnEjecucion.all (fun q =>
      decide (q ∈ k.colas .running)) = true →
      ∀ q, (k.cpus cpu).pcbEnEjecucion = some q → q ∈ k.colas .running := by
    intro cpu hall q hq
    rw [hq] at hall
    exact of_decide_eq_true hall
  cases hmueve : mueve a with
  | false => exact lugares_quieta h hmueve
  | true =>
    cases a with
    | largoResuelve q susp ok => exact lugares_admite h hP (hcandidato q susp ok rfl)
    | cortoPlanifica =>
      refine lugares_planifica h hP fun q hsome hq => ?_
      have hord : ((cpuPlanificada c k).isNone || (ordenReady c k).head?.all fun q =>
        decide ((.ready, q) ∉ (l ++ (programa c).origen .cortoPlanifica :: r).filterMap debe)) =
          true := hord
      rw [hq, Option.isNone_eq_false_iff.mpr hsome, Bool.false_or] at hord
      exact of_decide_eq_true hord
    | gestorToma => exact lugares_toma h hP
    | gestorLibera q ok => exact lugares_libera h
    | suspensionVence pid desde bloqueo => exact lugares_vence h hP
    | dumpFallaConexion q => cases hord
    | dumpResuelve q ok => exact lugares_resuelve h hP (hdump q ok rfl)
    | dumpFinaliza q | dumpFinalizaTomado q => exact h.entrega hP rfl rfl rfl rfl rfl rfl rfl
    | escuchaFinalizaAgrega cpu q | escuchaFinalizaTomado cpu q =>
      exact h.entrega hP rfl rfl rfl rfl rfl rfl rfl
    | ioFinalizaAgrega q resto =>
      exact h.entrega hP rfl (List.append_nil _) rfl rfl rfl rfl rfl
    | recibeInitProc cpu fd path tamanio absoluto => exact lugares_crea h hP
    | recibeRespuesta cpu fd pid pc m => exact lugares_responde h hP (hcpu hord)
    | recibeOtro cpu fd => exact lugares_otro h hP (hcpu hord)
    | escuchaRevisa cpu => exact lugares_revisa h hP (hcpu hord)
    | escuchaAgregaExit cpu q | escuchaAgregaReady cpu q => exact h.agrega hP rfl rfl rfl rfl
    | escuchaCambiaExit cpu q => exact lugares_cambiaExit h
    | escuchaCambiaReady cpu q => exact lugares_cambiaReady h
    | escuchaBloquea cpu q dispositivo duracion => exact lugares_bloquea h hP
    | escuchaSinDispositivo cpu q => exact h.no_quita rfl rfl rfl rfl
    | escuchaBloqueaDump cpu q => exact lugares_bloqueaDump h hP
    | escuchaFinaliza cpu q => exact h.termina (z := .maneja) hP nofun rfl rfl rfl rfl
    | ioFinaliza q resto =>
      exact h.termina (z := .finaliza) hP nofun rfl (List.append_nil _) rfl rfl
    | ioTermina fd nombre terminadas pid => exact lugares_terminaIo h hP
    | ioDesconecta fd nombre terminadas =>
      obtain ⟨sols, k', heq, hcolas, hpcbs, hesp⟩ := hio fd nombre terminadas rfl
      exact lugares_desconecta h hP heq hcolas hpcbs hesp
    | _ => cases hmueve

end Acciones

end KernelLugares
