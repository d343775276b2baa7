import Tpssoo.KernelLugares

/-!
# One request for each process that waits

A process in `cola_blocked` or `cola_suspended_blocked` has one thread that will take it out: a
device with its request, or a dump. `buscar_pcb_por_pid` then finds it whenever its wait ends.
-/
namespace KernelPedidos

open EnterosC Protocolo KernelEstado KernelFunciones KernelHilos KernelVistas KernelPcbs
open KernelPresentes KernelLargoPlazo KernelSaludos KernelSuspension KernelEjecucion
open KernelDispositivos
open KernelFlujos KernelLugares Entrelazado

/-- The blocked processes that a thread has to ask for, or to wake up itself. -/
def pide : Hilo → List ℤ
  | .escuchaEncola _ pcb _ _ | .dumpPide pcb | .dumpAguarda pcb | .dumpResuelve pcb _ => [pcb]
  | _ => []

def bloqueos (colas : Estado → List ℤ) (p : ℤ) : ℕ :=
  (colas .blocked).count p + (colas .suspendedBlocked).count p

def Pedidos (s : Sistema Kernel Hilo) : Prop := ∀ p,
  (s.hilos.flatMap pide).count p + (pedidosIo s.comun.dispositivosIo).count p =
    bloqueos s.comun.colas p

section Colas

variable {k : Kernel} {p q : ℤ} {e e' : Estado}

theorem bloqueos_quitar (hq : q ∈ k.colas e) (he : e = .blocked ∨ e = .suspendedBlocked) :
    bloqueos (k.quitar e q).colas p + [q].count p = bloqueos k.colas p := by
  have huno : 0 < (k.colas e).count q := List.count_pos_iff.mpr hq
  simp only [bloqueos, count_quitar, List.count_singleton, beq_iff_eq]
  by_cases hp : q = p
  · subst hp
    rcases he with rfl | rfl <;> simp <;> omega
  · simp [hp]

theorem bloqueos_agregar : bloqueos (k.agregar e q).colas p = bloqueos k.colas p +
    if e = .blocked ∨ e = .suspendedBlocked then [q].count p else 0 := by
  simp only [bloqueos, count_agregar, List.count_singleton, beq_iff_eq]
  cases e <;> simp <;> omega

theorem bloqueos_quitar_otra (he : e ≠ .blocked ∧ e ≠ .suspendedBlocked) :
    bloqueos (k.quitar e q).colas = bloqueos k.colas := by
  funext p
  simp only [bloqueos, count_quitar]
  rw [if_neg fun h => he.1 h.1.symm, if_neg fun h => he.2 h.1.symm]
  rfl

theorem en_espera (hp : 0 < bloqueos k.colas p) :
    ∃ e, (e = .blocked ∨ e = .suspendedBlocked) ∧ p ∈ k.colas e := by
  by_cases hb : p ∈ k.colas .blocked
  · exact ⟨_, Or.inl rfl, hb⟩
  · refine ⟨_, Or.inr rfl, List.count_pos_iff.mp ?_⟩
    rw [bloqueos, List.count_eq_zero.mpr hb] at hp
    omega

end Colas

section Busquedas

variable {k : Kernel} {hs : List Hilo} {p : ℤ} {e : Estado}

/-- The queues hold no freed block. -/
def Vivas (k : Kernel) : Prop := ∀ e, ∀ p ∈ k.colas e, (k.pcbs p).isSome = true

theorem vivas_de_lugares (h : Lugares ⟨k, hs⟩) : Vivas k := by
  intro e p hp
  obtain ⟨e', he', -, -⟩ := (h.lugar p).sitio (veces_cola hp)
  obtain ⟨b, hb, -⟩ := Option.map_eq_some_iff.mp he'
  exact Option.isSome_iff_exists.mpr ⟨b, hb⟩

theorem buscarEnCola_mem_eq {pcbs : ℤ → Option Pcb} {xs : List ℤ}
    (hvivos : ∀ q ∈ xs, (pcbs q).isSome = true)
    (hp : p ∈ xs) : buscarEnCola pcbs p xs = some (some p) := by
  induction xs with
  | nil => cases hp
  | cons x xs ih =>
    have hx : ¬ (pcbs x).isNone := by
      rw [Option.isNone_iff_eq_none]
      exact Option.isSome_iff_ne_none.mp (hvivos x List.mem_cons_self)
    rw [buscarEnCola, if_neg hx]
    split
    · next heq => rw [heq]
    · next hne =>
        refine ih (fun q hq => hvivos q (List.mem_cons_of_mem _ hq)) ?_
        exact (List.mem_cons.mp hp).resolve_left fun heq => hne heq.symm

/-- `buscar_pcb_por_pid` finds a process that waits. -/
theorem buscar_espera (h : Vivas k) (he : e = .blocked ∨ e = .suspendedBlocked)
    (hp : p ∈ k.colas e) :
    buscarPcbPorPid k p = some (some p) := by
  refine buscarEnCola_mem_eq (fun q hq => ?_) ?_
  · simp only [List.mem_append] at hq
    rcases hq with hq | hq | hq | hq | hq <;> exact h _ q hq
  · simp only [List.mem_append]
    rcases he with rfl | rfl
    · exact Or.inr (Or.inr (Or.inl hp))
    · exact Or.inr (Or.inr (Or.inr (Or.inl hp)))

/-- The state of a process that waits is that of its queue. -/
theorem estado_espera (h : Lugares ⟨k, hs⟩) (he : e = .blocked ∨ e = .suspendedBlocked)
    (hp : p ∈ k.colas e) :
    estadoDe k p = some e := by
  obtain ⟨e₀, he₀, -, hcon⟩ := (h.lugar p).sitio (veces_cola hp)
  rcases hcon with rfl | ⟨-, hdebe⟩
  · exact he₀
  · obtain ⟨d, -, hd⟩ := List.mem_filterMap.mp hdebe
    cases d <;> cases hd <;> rcases he with h | h <;> cases h

theorem bloqueos_le (h : Lugares ⟨k, hs⟩) (p : ℤ) : bloqueos k.colas p ≤ 1 := by
  rcases h.lugar p with ⟨-, hcero⟩ | ⟨x, -, -, hsolo, -⟩
  · have hb : (k.colas .blocked).count p = 0 := hcero (.cola .blocked)
    have hs : (k.colas .suspendedBlocked).count p = 0 := hcero (.cola .suspendedBlocked)
    rw [bloqueos, hb, hs]
    exact Nat.zero_le _
  · have hb : (k.colas .blocked).count p = _ := hsolo (.cola .blocked)
    have hs : (k.colas .suspendedBlocked).count p = _ := hsolo (.cola .suspendedBlocked)
    rw [bloqueos, hb, hs]
    split
    · next h =>
        subst h
        rw [if_neg (by decide)]
    · split <;> decide

/-- The processes whose requests are lost leave their queues. -/
theorem vaciar_todos {sols : List Solicitud} (hvivas : Vivas k)
    (hesp : ∀ sol ∈ sols, ∃ e, (e = .blocked ∨ e = .suspendedBlocked) ∧
      estadoDe k sol.pid = some e ∧
      sol.pid ∈ k.colas e) (hnodup : (sols.map Solicitud.pid).Nodup) :
    (vaciarEspera sols k).2 = sols.map Solicitud.pid ∧
      ∀ p, bloqueos (vaciarEspera sols k).1.colas p + (sols.map Solicitud.pid).count p =
        bloqueos k.colas p := by
  induction sols generalizing k with
  | nil => exact ⟨rfl, fun p => rfl⟩
  | cons sol sols ih =>
    obtain ⟨e, he, hest, hmem⟩ := hesp sol List.mem_cons_self
    rw [List.map_cons, List.nodup_cons] at hnodup
    have hresto := ih (k := k.quitar e sol.pid) ?_ ?_ hnodup.2
    · rw [vaciarEspera, buscar_espera hvivas he hmem]
      dsimp only
      rw [quitarBloqueado_de hest he]
      refine ⟨congrArg (sol.pid :: ·) hresto.1, fun p => ?_⟩
      have hquita := bloqueos_quitar (p := p) hmem he
      have hp := hresto.2 p
      rw [List.map_cons, List.count_cons]
      simp only [List.count_singleton] at hquita
      omega
    · intro e' p hp
      rw [Kernel.colas_quitar] at hp
      refine hvivas e' p ?_
      split at hp
      · exact List.mem_of_mem_erase hp
      · exact hp
    · intro x hx
      obtain ⟨e', he', hest', hmem'⟩ := hesp x (List.mem_cons_of_mem _ hx)
      have hne : x.pid ≠ sol.pid := fun heq => hnodup.1 (List.mem_map.mpr ⟨x, hx, heq⟩)
      refine ⟨e', he', hest', ?_⟩
      rw [Kernel.colas_quitar]
      split
      · next heq => exact (List.mem_erase_of_ne hne).mpr (heq ▸ hmem')
      · exact hmem'

end Busquedas

section Acciones

variable {c : ConfigKernel} {k : Kernel} {l r : List Hilo} {a : Accion} {p q : ℤ} {cpu : ℕ}

/-- The actions after which there is another process that waits, or another request, or one less. -/
def altera : Accion → Bool
  | .suspensionVence _ _ _ | .dumpFallaConexion _ | .dumpResuelve _ _ | .escuchaBloquea _ _ _ _
  | .escuchaEncola _ _ _ _ | .escuchaBloqueaDump _ _ | .ioRegistra _ _ | .ioDespacha _
  | .ioTermina _ _ _ _ | .ioDesconecta _ _ _ => true
  | _ => false

theorem bloqueos_ajenos (ha : altera a = false) :
    bloqueos ((programa c).efecto k a).colas = bloqueos k.colas := by
  have hcolas : ∀ {t : Kernel}, t.colas = k.colas → bloqueos t.colas = bloqueos k.colas :=
    fun h => congrArg bloqueos h
  have hagregar : ∀ {t : Kernel} {e : Estado} {q : ℤ}, e ≠ .blocked ∧ e ≠ .suspendedBlocked →
      t.colas = (k.agregar e q).colas → bloqueos t.colas = bloqueos k.colas := by
    intro t e q he ht
    funext p
    rw [ht, bloqueos_agregar, if_neg (not_or.mpr he), Nat.add_zero]
  have hquitar : ∀ {t : Kernel} {q : ℤ}, t.colas = (k.quitar .running q).colas →
      bloqueos t.colas = bloqueos k.colas := by
    intro t q ht
    rw [ht, bloqueos_quitar_otra (by decide)]
  cases a with
  | suspensionVence _ _ _ | dumpFallaConexion _ | dumpResuelve _ _ | escuchaBloquea _ _ _ _
  | escuchaEncola _ _ _ _ | escuchaBloqueaDump _ _ | ioRegistra _ _ | ioDespacha _
  | ioTermina _ _ _ _ | ioDesconecta _ _ _ => cases ha
  | largoElige =>
    funext p
    exact congrArg₂ (· + ·) ((elegir_colas _).count_eq p) ((elegir_colas _).count_eq p)
  | largoEnvia pcb susp | gestorEnvia pcb | dumpEnvia pcb =>
    refine hcolas ?_
    dsimp only [programa, transicion]
    split <;> rfl
  | largoResuelve pcb susp ok =>
    cases ok with
    | false => rfl
    | true =>
      obtain ⟨e, i, hadmitir, -⟩ := admitir_eq c k pcb susp
      have hefecto : (programa c).efecto k (.largoResuelve pcb susp true) =
          admitir c k pcb susp := rfl
      rw [hefecto, hadmitir]
      funext p
      cases susp <;> simp [bloqueos, colaDe]
  | cortoPlanifica =>
    funext p
    rcases planificar_elegido (c := c) (k := k) with ⟨hcuentas, -⟩ | ⟨pcb, resto, i, cpu, -, -, heq⟩
    · exact congrArg₂ (· + ·) (hcuentas _ p) (hcuentas _ p)
    · have hefecto : (programa c).efecto k .cortoPlanifica = despachado k pcb resto i cpu := heq
      rw [hefecto]
      simp [bloqueos, despachado]
  | gestorToma =>
    dsimp only [programa, transicion]
    split
    · rfl
    · funext p
      simp [bloqueos, Kernel.cambiarEstado, Kernel.conPcb]
  | gestorLibera pcb ok =>
    refine hcolas ?_
    dsimp only [programa, transicion]
    split
    · rfl
    · cases ok <;> rfl
  | suspensionResuelve ok =>
    refine hcolas ?_
    dsimp only [programa, transicion]
    split <;> rfl
  | dumpFinaliza pcb | dumpFinalizaTomado pcb | escuchaFinalizaAgrega cpu pcb
  | escuchaFinalizaTomado cpu pcb | ioFinalizaAgrega pcb resto | escuchaAgregaExit cpu pcb =>
    exact hagregar (e := .exit) (q := pcb) (by decide) rfl
  | escuchaAgregaReady cpu pcb => exact hagregar (e := .ready) (q := pcb) (by decide) rfl
  | cpuRegistra fd nombre =>
    refine hcolas ?_
    dsimp only [programa, transicion, registrarCpu]
    split <;> rfl
  | interruptRegistra fd nombre =>
    refine hcolas ?_
    dsimp only [programa, transicion]
    split <;> rfl
  | recibeInitProc cpu fd path tamanio absoluto =>
    obtain ⟨e, hefecto⟩ := initProc_igual (c := c) (k := k) cpu fd path tamanio absoluto
    refine hagregar (e := .new) (q := k.ultimoPid) (by decide) ?_
    rw [hefecto, crearPcb]
    split <;> rfl
  | recibeRespuesta cpu fd pid pc m =>
    dsimp only [programa, transicion, recibirRespuesta]
    split
    · rfl
    split
    · rfl
    split
    · exact hquitar rfl
    · exact hquitar rfl
  | recibeOtro cpu fd =>
    dsimp only [programa, transicion]
    split
    · rfl
    · exact hquitar rfl
  | escuchaSinDispositivo cpu pcb => exact hquitar rfl
  | escuchaRevisa cpu =>
    dsimp only [programa, transicion]
    split
    · rfl
    · exact hquitar rfl
  | escuchaDesaloja cpu pcb => exact hcolas (colas_desalojar pcb)
  | _ => rfl

theorem pide_ajenos (ha : altera a = false) :
    ((programa c).destino k a).flatMap pide = pide ((programa c).origen a) := by
  cases a with
  | suspensionVence _ _ _ | dumpFallaConexion _ | dumpResuelve _ _ | escuchaBloquea _ _ _ _
  | escuchaEncola _ _ _ _ | escuchaBloqueaDump _ _ | ioRegistra _ _ | ioDespacha _
  | ioTermina _ _ _ _ | ioDesconecta _ _ _ => cases ha
  | largoElige | gestorToma =>
    dsimp only [programa, transicion]
    split <;> rfl
  | largoResuelve pcb susp ok =>
    dsimp only [programa, transicion]
    split <;> rfl
  | recibeRespuesta cpu fd pid pc m =>
    dsimp only [programa, transicion, trasRespuesta]
    split
    · rfl
    split
    · rfl
    split
    · rfl
    · cases m <;> rfl
  | recibeOtro cpu fd | escuchaRevisa cpu =>
    dsimp only [programa, transicion]
    split <;> rfl
  | _ => rfl

theorem dispositivos_ajenos (ha : altera a = false) :
    ((programa c).efecto k a).dispositivosIo = k.dispositivosIo := by
  cases hto : tocaIo a with
  | false => exact congrArg VistaIo.dispositivos (vistaIo_efecto c k hto)
  | true =>
    cases a with
    | conectaCpu _ | conectaIo _ | moduloSaluda _ _ | ioResponde _ _ => rfl
    | escuchaEncola _ _ _ _ | ioRegistra _ _ | ioDespacha _ | ioTermina _ _ _ _
    | ioDesconecta _ _ _ => cases ha
    | _ => cases hto

theorem pedidos_balance {k' : Kernel} {o : Hilo} {ds : List Hilo} (h : Pedidos ⟨k, l ++ o :: r⟩)
    (hb : ∀ p, (ds.flatMap pide).count p + (pedidosIo k'.dispositivosIo).count p +
      bloqueos k.colas p =
      (pide o).count p + (pedidosIo k.dispositivosIo).count p + bloqueos k'.colas p) :
    Pedidos ⟨k', l ++ (ds ++ r)⟩ := by
  intro p
  have hp : ((l ++ o :: r).flatMap pide).count p + (pedidosIo k.dispositivosIo).count p =
      bloqueos k.colas p := h p
  have hbp := hb p
  simp only [List.flatMap_append, List.flatMap_cons, List.count_append] at hp ⊢
  omega

/-- A process that is asked for waits. -/
theorem pedido_espera {s : Sistema Kernel Hilo} (h : Pedidos s) (hL : Lugares s)
    (hp : p ∈ s.hilos.flatMap pide ∨ p ∈ pedidosIo s.comun.dispositivosIo) :
    ∃ e, (e = .blocked ∨ e = .suspendedBlocked) ∧ estadoDe s.comun p = some e ∧
      p ∈ s.comun.colas e := by
  have hpos : 0 < bloqueos s.comun.colas p := by
    rw [← h p]
    rcases hp with hp | hp
    · exact Nat.add_pos_left (List.count_pos_iff.mpr hp) _
    · exact Nat.add_pos_right _ (List.count_pos_iff.mpr hp)
  obtain ⟨e, he, hmem⟩ := en_espera hpos
  exact ⟨e, he, estado_espera hL he hmem, hmem⟩

theorem busca_pedido {s : Sistema Kernel Hilo} (h : Pedidos s) (hL : Lugares s) (hP : Pids s.comun)
    (hp : p ∈ s.hilos.flatMap pide ∨ p ∈ pedidosIo s.comun.dispositivosIo) :
    buscarPcbPorPid s.comun p = some (some p) ∧ ∃ b, s.comun.pcbs p = some b ∧ b.pid = p := by
  obtain ⟨e, he, hest, hmem⟩ := pedido_espera h hL hp
  obtain ⟨b, hb, -⟩ := Option.map_eq_some_iff.mp hest
  exact ⟨buscar_espera (vivas_de_lugares hL) he hmem, b, hb, hP.propios p b hb⟩

section Despertares

variable {e : Estado} (hbusca : buscarPcbPorPid k q = some (some q)) (hest : estadoDe k q = some e)
  (he : e = .blocked ∨ e = .suspendedBlocked) (hq : q ∈ k.colas e)

include hq he in
theorem bloqueos_mover (e' : Estado) (he' : ¬ (e' = .blocked ∨ e' = .suspendedBlocked)) :
    bloqueos ((k.quitar e q).agregar e' q).colas p + [q].count p = bloqueos k.colas p := by
  rw [bloqueos_agregar, if_neg he', Nat.add_zero]
  exact bloqueos_quitar hq he

include hbusca hest he hq

theorem bloqueos_terminarDump : bloqueos (terminarDump k q).colas p + [q].count p =
    bloqueos k.colas p := by
  rw [terminarDump, hbusca]
  dsimp only
  rcases he with rfl | rfl
  · rw [if_pos hest]
    exact bloqueos_mover (Or.inl rfl) hq .ready (by decide)
  · rw [hest, if_neg (by decide), if_pos rfl]
    exact bloqueos_mover (Or.inr rfl) hq .suspendedReady (by decide)

theorem bloqueos_despertarDeIo :
    bloqueos (despertarDeIo c k q).colas p + [q].count p = bloqueos k.colas p := by
  rw [despertarDeIo, hbusca]
  dsimp only
  rcases he with rfl | rfl
  · rw [if_pos hest, colas_desalojar]
    exact bloqueos_mover (Or.inl rfl) hq .ready (by decide)
  · rw [hest, if_neg (by decide), if_pos rfl]
    exact bloqueos_mover (Or.inr rfl) hq .suspendedReady (by decide)

end Despertares

theorem pedidos_resuelve {ok : Bool}
    (h : Pedidos ⟨k, l ++ (programa c).origen (.dumpResuelve q ok) :: r⟩)
    (hL : Lugares ⟨k, l ++ (programa c).origen (.dumpResuelve q ok) :: r⟩) (hP : Pids k) :
    Pedidos ⟨(programa c).efecto k (.dumpResuelve q ok),
      l ++ ((programa c).destino k (.dumpResuelve q ok) ++ r)⟩ := by
  have hmem : q ∈ (l ++ (programa c).origen (.dumpResuelve q ok) :: r).flatMap pide := by
    refine List.mem_flatMap.mpr ⟨_, List.mem_append_right _ List.mem_cons_self, ?_⟩
    exact List.mem_singleton_self q
  obtain ⟨e, he, hest, hq⟩ := pedido_espera h hL (Or.inl hmem)
  obtain ⟨hbusca, b, hb, hpid⟩ := busca_pedido h hL hP (Or.inl hmem)
  have hbusca : buscarPcbPorPid k q = some (some q) := hbusca
  have hb : k.pcbs q = some b := hb
  have hest : estadoDe k q = some e := hest
  have hds : ((programa c).efecto k (.dumpResuelve q ok)).dispositivosIo = k.dispositivosIo :=
    congrArg VistaIo.dispositivos (vistaIo_efecto c k rfl)
  have hdestino : ((programa c).destino k (.dumpResuelve q ok)).flatMap pide = [] := by
    dsimp only [programa, transicion, trasDump]
    repeat' split
    all_goals rfl
  have hbloqueos : ∀ p, bloqueos ((programa c).efecto k (.dumpResuelve q ok)).colas p +
      [q].count p =
      bloqueos k.colas p := by
    intro p
    dsimp only [programa, transicion, resolverDump]
    rw [hb]
    dsimp only
    rw [hpid, hbusca]
    cases ok with
    | true => exact bloqueos_terminarDump hbusca hest he hq
    | false =>
      dsimp only
      rw [quitarBloqueado_de hest he]
      exact bloqueos_quitar hq he
  refine pedidos_balance h fun p => ?_
  rw [hds, hdestino, ← hbloqueos p, List.count_nil]
  have hpide : pide ((programa c).origen (.dumpResuelve q ok)) = [q] := rfl
  rw [hpide]
  omega

theorem pedidos_vence {pid desde : ℤ} {bloqueo : ℕ}
    (h : Pedidos ⟨k, l ++ (programa c).origen (.suspensionVence pid desde bloqueo) :: r⟩)
    (hL : Lugares ⟨k, l ++ (programa c).origen (.suspensionVence pid desde bloqueo) :: r⟩) :
    Pedidos ⟨(programa c).efecto k (.suspensionVence pid desde bloqueo),
      l ++ ((programa c).destino k (.suspensionVence pid desde bloqueo) ++ r)⟩ := by
  have hds : ((programa c).efecto k (.suspensionVence pid desde bloqueo)).dispositivosIo =
      k.dispositivosIo :=
    congrArg VistaIo.dispositivos (vistaIo_efecto c k rfl)
  have hdestino : ((programa c).destino k (.suspensionVence pid desde bloqueo)).flatMap
      pide = [] := by
    dsimp only [programa, transicion]
    repeat' split
    all_goals rfl
  have hbloqueos : ∀ p, bloqueos ((programa c).efecto k
      (.suspensionVence pid desde bloqueo)).colas p =
      bloqueos k.colas p := by
    intro p
    rcases traslada_vence (c := c) (k := k) pid desde bloqueo with
        ⟨hcolas, -⟩ | ⟨q, e, e', hbusca, he, hpar, hcolas, -⟩
    · rw [hcolas]
    · obtain ⟨rfl, rfl⟩ := Prod.mk.inj (List.mem_singleton.mp hpar)
      have hq : q ∈ k.colas .blocked := (hL.lugar q).buscado hbusca he (by decide)
      rw [hcolas, bloqueos_agregar, if_pos (Or.inr rfl)]
      exact bloqueos_quitar hq (Or.inl rfl)
  refine pedidos_balance h fun p => ?_
  rw [hds, hdestino, hbloqueos]
  rfl

theorem bloqueos_bloquear (q p : ℤ) : bloqueos ((k.quitar .running q).agregar .blocked q).colas p =
    bloqueos k.colas p + [q].count p := by
  rw [bloqueos_agregar, if_pos (Or.inl rfl), bloqueos_quitar_otra (by decide)]

theorem pedidos_bloquea {dispositivo : List Byte} {duracion : ℤ}
    (h : Pedidos ⟨k, l ++ (programa c).origen (.escuchaBloquea cpu q dispositivo duracion) :: r⟩) :
    Pedidos ⟨(programa c).efecto k (.escuchaBloquea cpu q dispositivo duracion),
      l ++ ((programa c).destino k (.escuchaBloquea cpu q dispositivo duracion) ++ r)⟩ := by
  refine pedidos_balance h fun p => ?_
  cases hgrupo : buscarGrupo k dispositivo with
  | none =>
    have hefecto : (programa c).efecto k (.escuchaBloquea cpu q dispositivo duracion) =
        k.quitar .running q := by
      dsimp only [programa, transicion]
      rw [hgrupo]
    have hdestino : ((programa c).destino k (.escuchaBloquea cpu q dispositivo duracion)).flatMap
        pide = [] := by
      dsimp only [programa, transicion]
      rw [hgrupo]
      rfl
    rw [hefecto, hdestino, bloqueos_quitar_otra (by decide)]
    rfl
  | some g =>
    have hefecto : (programa c).efecto k (.escuchaBloquea cpu q dispositivo duracion) =
        bloquearPorIo k q duracion := by
      dsimp only [programa, transicion]
      rw [hgrupo]
    have hdestino : ((programa c).destino k (.escuchaBloquea cpu q dispositivo duracion)).flatMap
        pide = [q] := by
      dsimp only [programa, transicion]
      rw [hgrupo]
      rfl
    have horigen : pide ((programa c).origen (.escuchaBloquea cpu q dispositivo duracion)) = [] :=
        rfl
    have hbloqueos : bloqueos (bloquearPorIo k q duracion).colas p =
        bloqueos k.colas p + [q].count p :=
      bloqueos_bloquear q p
    have hds : (bloquearPorIo k q duracion).dispositivosIo = k.dispositivosIo := rfl
    rw [hefecto, hdestino, horigen, hbloqueos, hds, List.count_nil]
    omega

theorem pedidos_bloqueaDump
    (h : Pedidos ⟨k, l ++ (programa c).origen (.escuchaBloqueaDump cpu q) :: r⟩) :
    Pedidos ⟨(programa c).efecto k (.escuchaBloqueaDump cpu q),
      l ++ ((programa c).destino k (.escuchaBloqueaDump cpu q) ++ r)⟩ := by
  refine pedidos_balance h fun p => ?_
  have hbloqueos : bloqueos ((programa c).efecto k (.escuchaBloqueaDump cpu q)).colas p =
      bloqueos k.colas p + [q].count p := bloqueos_bloquear q p
  have hdestino : ((programa c).destino k (.escuchaBloqueaDump cpu q)).flatMap pide = [q] := rfl
  have horigen : pide ((programa c).origen (.escuchaBloqueaDump cpu q)) = [] := rfl
  have hds : ((programa c).efecto k (.escuchaBloqueaDump cpu q)).dispositivosIo =
      k.dispositivosIo := rfl
  rw [hbloqueos, hdestino, horigen, hds, List.count_nil]
  omega

/-- `bloquear_proceso` finds its group where it left it, when it takes its lock. -/
def grupoVigente (k : Kernel) : Accion → Bool
  | .escuchaEncola _ _ grupo _ => (grupoDe k grupo).isSome
  | _ => true

theorem vigente_de_definido (h : ((programa c).efecto k a).indefinido = false) :
    grupoVigente k a = true := by
  cases a with
  | escuchaEncola cpu q grupo duracion =>
    dsimp only [programa, transicion, encolarSolicitud] at h
    split at h
    · next g b hg hb => exact Option.isSome_iff_exists.mpr ⟨g, hg⟩
    · cases h
  | _ => rfl

theorem pedidos_encola {grupo : ℕ} {duracion : ℤ}
    (h : Pedidos ⟨k, l ++ (programa c).origen (.escuchaEncola cpu q grupo duracion) :: r⟩)
    (hF : Flujos (vistaIo k) (l ++ (programa c).origen (.escuchaEncola cpu q grupo duracion) :: r))
    (hP : Pids k)
    (hL : Lugares ⟨k, l ++ (programa c).origen (.escuchaEncola cpu q grupo duracion) :: r⟩)
    (hvigente : (grupoDe k grupo).isSome) :
    Pedidos ⟨(programa c).efecto k (.escuchaEncola cpu q grupo duracion),
      l ++ ((programa c).destino k (.escuchaEncola cpu q grupo duracion) ++ r)⟩ := by
  have hmem : q ∈ (l ++ (programa c).origen (.escuchaEncola cpu q grupo duracion) ::
      r).flatMap pide :=
    List.mem_flatMap.mpr ⟨_, List.mem_append_right _ List.mem_cons_self, List.mem_singleton_self q⟩
  obtain ⟨-, b, hb, -⟩ := busca_pedido h hL hP (Or.inl hmem)
  have hb : k.pcbs q = some b := hb
  obtain ⟨g, hg⟩ := Option.isSome_iff_exists.mp hvigente
  have hefecto : (programa c).efecto k (.escuchaEncola cpu q grupo duracion) =
      encolarSolicitud k grupo q duracion := rfl
  rw [hefecto]
  obtain ⟨-, hcuentas⟩ := encolar_efecto duracion hF hg hb
  rw [hP.propios q b hb] at hcuentas
  have hcolas : (encolarSolicitud k grupo q duracion).colas = k.colas := by
    rw [encolarSolicitud, hg, hb]
    rfl
  have hdestino : ((programa c).destino k (.escuchaEncola cpu q grupo duracion)).flatMap
      pide = [] := rfl
  have horigen : pide ((programa c).origen (.escuchaEncola cpu q grupo duracion)) = [q] := rfl
  refine pedidos_balance h fun p => ?_
  rw [hdestino, horigen, hcuentas, hcolas, List.count_nil]
  omega

theorem pedidos_termina {fd t : ℕ} {nombre : List Byte} {pid : ℤ}
    (h : Pedidos ⟨k, l ++ (programa c).origen (.ioTermina fd nombre t pid) :: r⟩)
    (hL : Lugares ⟨k, l ++ (programa c).origen (.ioTermina fd nombre t pid) :: r⟩)
    (hF : Flujos (vistaIo k) (l ++ (programa c).origen (.ioTermina fd nombre t pid) :: r))
    (hP : Pids k)
    (hg : (programa c).guarda k (.ioTermina fd nombre t pid)) :
    Pedidos ⟨(programa c).efecto k (.ioTermina fd nombre t pid),
      l ++ ((programa c).destino k (.ioTermina fd nombre t pid) ++ r)⟩ := by
  have hpedido : pedidoIo k fd t = some pid := by
    have hg' := hg.2
    dsimp only [transicion] at hg'
    simp only [Bool.and_eq_true, decide_eq_true_eq] at hg'
    exact hg'.2
  obtain ⟨-, hcuentas, g, hgrupo⟩ := finIo_efecto (c := c) hF hpedido
  have hmem : pid ∈ pedidosIo k.dispositivosIo := by
    rw [← List.count_pos_iff, ← hcuentas, List.count_singleton_self]
    exact Nat.succ_pos _
  obtain ⟨e, he, hest, hq⟩ := pedido_espera h hL (Or.inr hmem)
  obtain ⟨hbusca, -⟩ := busca_pedido h hL hP (Or.inr hmem)
  have hcolas : (manejarFinIo c k pid fd).colas = (despertarDeIo c k pid).colas := by
    rw [manejarFinIo, hgrupo]
    rfl
  refine pedidos_balance h fun p => ?_
  have hbloqueos : bloqueos ((programa c).efecto k (.ioTermina fd nombre t pid)).colas p +
      [pid].count p =
      bloqueos k.colas p := by
    have hefecto : (programa c).efecto k (.ioTermina fd nombre t pid) =
        manejarFinIo c k pid fd := rfl
    rw [hefecto, hcolas]
    exact bloqueos_despertarDeIo hbusca hest he hq
  have hcuenta : (pedidosIo ((programa c).efecto k
      (.ioTermina fd nombre t pid)).dispositivosIo).count p +
      [pid].count p = (pedidosIo k.dispositivosIo).count p := hcuentas p
  have hdestino : ((programa c).destino k (.ioTermina fd nombre t pid)).flatMap pide = [] := rfl
  have horigen : pide ((programa c).origen (.ioTermina fd nombre t pid)) = [] := rfl
  rw [hdestino, horigen]
  omega

/-- What a disconnection finalises waits, and is finalised once. -/
theorem desconexion_espera {fd t : ℕ} {nombre : List Byte}
    (h : Pedidos ⟨k, l ++ (programa c).origen (.ioDesconecta fd nombre t) :: r⟩)
    (hL : Lugares ⟨k, l ++ (programa c).origen (.ioDesconecta fd nombre t) :: r⟩)
    (hF : Flujos (vistaIo k) (l ++ (programa c).origen (.ioDesconecta fd nombre t) :: r))
    (hP : Pids k) :
    ∃ sols k', manejarDesconexionIo k nombre fd = (k', (vaciarEspera sols k).2) ∧
      k'.colas = (vaciarEspera sols k).1.colas ∧ k'.pcbs = k.pcbs ∧
      (∀ sol ∈ sols, ∃ e, (e = .blocked ∨ e = .suspendedBlocked) ∧ estadoDe k sol.pid = some e ∧
        sol.pid ∈ k.colas e) ∧ (sols.map Solicitud.pid).Nodup ∧
      ∀ q, (pedidosIo k'.dispositivosIo).count q + (sols.map Solicitud.pid).count q =
        (pedidosIo k.dispositivosIo).count q := by
  obtain ⟨-, sols, k', heq, hcolas, hpcbs, hcuentas⟩ := desconexion_efecto hF fun q hq =>
    busca_pedido h hL hP (Or.inr hq)
  refine ⟨sols, k', heq, hcolas, hpcbs, fun sol hsol => ?_, ?_, hcuentas⟩
  · refine pedido_espera h hL (Or.inr ?_)
    rw [← List.count_pos_iff, ← hcuentas]
    exact Nat.add_pos_right _ (List.count_pos_iff.mpr (List.mem_map.mpr ⟨sol, hsol, rfl⟩))
  · refine List.nodup_iff_count_le_one.mpr fun q => ?_
    have hq := hcuentas q
    have hle := bloqueos_le hL q
    have hpq : _ + (pedidosIo k.dispositivosIo).count q = bloqueos k.colas q := h q
    omega

theorem pedidos_desconecta {fd t : ℕ} {nombre : List Byte}
    (h : Pedidos ⟨k, l ++ (programa c).origen (.ioDesconecta fd nombre t) :: r⟩)
    (hL : Lugares ⟨k, l ++ (programa c).origen (.ioDesconecta fd nombre t) :: r⟩)
    (hF : Flujos (vistaIo k) (l ++ (programa c).origen (.ioDesconecta fd nombre t) :: r))
    (hP : Pids k) :
    Pedidos ⟨(programa c).efecto k (.ioDesconecta fd nombre t),
      l ++ ((programa c).destino k (.ioDesconecta fd nombre t) ++ r)⟩ := by
  obtain ⟨sols, k', heq, hcolas, -, hesp, hnodup, hcuentas⟩ := desconexion_espera h hL hF hP
  obtain ⟨-, hvacia⟩ := vaciar_todos (vivas_de_lugares hL) hesp hnodup
  refine pedidos_balance h fun p => ?_
  have hefecto : (programa c).efecto k (.ioDesconecta fd nombre t) = k' := congrArg Prod.fst heq
  have hdestino : ((programa c).destino k (.ioDesconecta fd nombre t)).flatMap pide = [] := rfl
  have horigen : pide ((programa c).origen (.ioDesconecta fd nombre t)) = [] := rfl
  have hcuenta := hcuentas p
  have hbloqueos := hvacia p
  rw [hefecto, hdestino, horigen, hcolas]
  omega

theorem pedidos_paso (h : Pedidos ⟨k, l ++ (programa c).origen a :: r⟩)
    (hL : Lugares ⟨k, l ++ (programa c).origen a :: r⟩)
    (hF : Flujos (vistaIo k) (l ++ (programa c).origen a :: r)) (hP : Pids k)
    (hg : (programa c).guarda k a)
    (hlimpio : limpio c k (l ++ (programa c).origen a :: r) a = true)
    (hvigente : grupoVigente k a = true) :
    Pedidos ⟨(programa c).efecto k a, l ++ ((programa c).destino k a ++ r)⟩ := by
  have hmismos : ∀ {k' : Kernel} {o : Hilo} {ds : List Hilo}, Pedidos ⟨k, l ++ o :: r⟩ →
      ds.flatMap pide = pide o → (∀ q, (pedidosIo k'.dispositivosIo).count q =
        (pedidosIo k.dispositivosIo).count q) → bloqueos k'.colas = bloqueos k.colas →
      Pedidos ⟨k', l ++ (ds ++ r)⟩ := by
    intro k' o ds h hpide hcuentas hbloqueos
    refine pedidos_balance h fun p => ?_
    rw [hpide, hcuentas, hbloqueos]
  cases halt : altera a with
  | false =>
    refine hmismos h (pide_ajenos halt) (fun q => ?_) (bloqueos_ajenos halt)
    rw [dispositivos_ajenos halt]
  | true =>
    cases a with
    | suspensionVence pid desde bloqueo => exact pedidos_vence h hL
    | dumpFallaConexion q => cases hlimpio
    | dumpResuelve q ok => exact pedidos_resuelve h hL hP
    | escuchaBloquea cpu q dispositivo duracion => exact pedidos_bloquea h
    | escuchaBloqueaDump cpu q => exact pedidos_bloqueaDump h
    | escuchaEncola cpu q grupo duracion => exact pedidos_encola h hF hP hL hvigente
    | ioRegistra fd nombre =>
      refine hmismos h rfl (registrar_efecto 0 hF).2 ?_
      dsimp only [programa, transicion, registrarInstancia]
      split <;> rfl
    | ioDespacha grupo =>
      refine hmismos h rfl (despacharGrupo_efecto hF).2 ?_
      dsimp only [programa, transicion, despacharGrupo]
      split <;> rfl
    | ioTermina fd nombre t pid => exact pedidos_termina h hL hF hP hg
    | ioDesconecta fd nombre t => exact pedidos_desconecta h hL hF hP
    | _ => cases halt

end Acciones

section Corridas

variable {c : ConfigKernel} {k : Kernel} {l r : List Hilo} {a : Accion}

/-- What holds of the processes and their requests, until a pointer to a lost group is used. -/
structure EnOrden (s : Sistema Kernel Hilo) : Prop where
  lugares : Lugares s
  pids : Pids s.comun
  planificador : Planificador s
  flujos : Flujos (vistaIo s.comun) s.hilos
  pedidos : s.comun.indefinido = false → Pedidos s

theorem enOrden_paso (h : EnOrden ⟨k, l ++ (programa c).origen a :: r⟩)
    (hg : (programa c).guarda k a)
    (hlimpio : limpio c k (l ++ (programa c).origen a :: r) a = true) :
    EnOrden ⟨(programa c).efecto k a, l ++ ((programa c).destino k a ++ r)⟩ := by
  have hped := h.pedidos hg.1
  constructor
  · refine lugares_paso h.lugares h.pids hlimpio ?_ ?_ ?_
    · rintro q susp ok rfl
      exact h.planificador.candidato hg.1 _ (List.mem_append_right _ List.mem_cons_self) q susp rfl
    · rintro q ok rfl
      have hmem : q ∈ (l ++ (programa c).origen (.dumpResuelve q ok) :: r).flatMap pide :=
        List.mem_flatMap.mpr ⟨_, List.mem_append_right _ List.mem_cons_self,
          List.mem_singleton_self q⟩
      obtain ⟨e, rfl | rfl, hest, -⟩ := pedido_espera hped h.lugares (Or.inl hmem)
      · exact Or.inl hest
      · exact Or.inr hest
    · rintro fd nombre t rfl
      obtain ⟨sols, k', heq, hcolas, hpcbs, hesp, -⟩ := desconexion_espera hped h.lugares
          h.flujos h.pids
      refine ⟨sols, k', heq, hcolas, hpcbs, fun sol hsol => ?_⟩
      obtain ⟨e, rfl | rfl, hest, -⟩ := hesp sol hsol
      · exact Or.inl hest
      · exact Or.inr hest
  · exact pids_efecto h.pids
  · exact planificador_paso h.planificador hg.1
  · exact flujos_paso h.flujos hg fun q hq => busca_pedido hped h.lugares h.pids (Or.inr hq)
  · exact fun hdef =>
      pedidos_paso hped h.lugares h.flujos h.pids hg hlimpio (vigente_de_definido hdef)

theorem pids_crear {path : List Byte} {tamanio : ℤ} {absoluto : Option (List Byte)} (h : Pids k) :
    Pids (crearPcb c k path tamanio absoluto) := by
  obtain ⟨b, -, hpcbs, hult, -, hpid⟩ := crear_datos k c path tamanio absoluto
  constructor
  · intro p b' hp
    rw [hpcbs] at hp
    by_cases hnuevo : p = k.ultimoPid
    · subst hnuevo
      rw [Function.update_self] at hp
      cases hp
      exact hpid
    · rw [Function.update_of_ne hnuevo] at hp
      exact h.propios p b' hp
  · intro p hp
    rw [hult] at hp
    rw [hpcbs, Function.update_of_ne (by omega)]
    exact h.nuevos p (by omega)

theorem enOrden_inicial (c : ConfigKernel) (path : List Byte) (tamanio : ℤ)
    (absoluto : Option (List Byte)) :
    EnOrden (arranque c path tamanio absoluto) := by
  obtain ⟨b, hcolas, hpcbs, hult, hb, -⟩ := crear_datos inicial c path tamanio absoluto
  have hio : vistaIo (crearPcb c inicial path tamanio absoluto) = vistaIo inicial :=
    vistaIo_crearPcb c inicial path tamanio absoluto
  have hpids : Pids inicial := by
    refine ⟨fun p b hp => ?_, fun _ _ => rfl⟩
    cases hp
  have hvacio : Lugares ⟨inicial, [] ++ .aceptaCpus :: [.aceptaIos, .reloj, .largoArranca,
      .cortoEspera,
      .gestorEspera]⟩ := by
    refine ⟨fun p => Or.inl ⟨rfl, fun x => ?_⟩, nofun, nofun⟩
    cases x <;> rfl
  have hnace : Lugares ⟨crearPcb c inicial path tamanio absoluto, [] ++ ([.aceptaCpus] ++
      [.aceptaIos, .reloj, .largoArranca, .cortoEspera, .gestorEspera])⟩ :=
    hvacio.nace hpids rfl rfl rfl rfl hcolas hpcbs hb hult
  constructor
  · exact hnace
  · exact pids_crear hpids
  · exact planificador_inicial c path tamanio absoluto
  · rw [arranque, hio]
    exact flujos_inicial
  · intro _ p
    have hds : (crearPcb c inicial path tamanio absoluto).dispositivosIo = [] :=
      congrArg VistaIo.dispositivos hio
    rw [arranque, hds, hcolas]
    rfl

/-- Each step of a run is a clean one. -/
def Limpio (c : ConfigKernel) (e : ℕ × Accion) (s : Sistema Kernel Hilo) : Prop :=
  limpio c s.comun s.hilos e.2 = true

instance (c : ConfigKernel) (e : ℕ × Accion) (s : Sistema Kernel Hilo) : Decidable (Limpio c e s) :=
  inferInstanceAs (Decidable (_ = _))

theorem enOrden_corrida (path : List Byte) (tamanio : ℤ) (absoluto : Option (List Byte))
    {C : ℕ × Accion → Sistema Kernel Hilo → Prop} {s : Sistema Kernel Hilo}
    (hC : ∀ e s, C e s → Limpio c e s)
    (h : Llega (programa c) C (arranque c path tamanio absoluto) s) : EnOrden s := by
  refine invariante_llega (I := EnOrden) ?_ (enOrden_inicial c path tamanio absoluto) h
  intro k l r a hI hg hstep
  exact enOrden_paso hI hg (hC _ _ hstep)

end Corridas

end KernelPedidos
