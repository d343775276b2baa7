import Tpssoo.KernelFunciones
import Tpssoo.HistoriaEstados

/-!
# Time accounting

What `cambiar_estado` leaves in the metrics of a process, against the history of its states. The
two suspended states share their time and their counter, and the time in EXIT is not counted.
-/
namespace KernelMetricas

open EnterosC KernelEstado KernelFunciones HistoriaEstados

/-- A sequence of calls to `cambiar_estado`, each with the time that it reads. -/
def cambiarEstados (cambios : List (ℤ × Estado)) (p : Pcb) : Pcb :=
  cambios.foldl (fun p x => p.cambiarEstado x.1 x.2) p

/-- The states whose time and entries are counted together with those of a state. -/
def juntos : Estado → List Estado
  | .suspendedReady | .suspendedBlocked => [.suspendedReady, .suspendedBlocked]
  | s => [s]

def tiempo (m : Metricas) : Estado → ℤ
  | .new => m.tiempoEnNew
  | .ready => m.tiempoEnReady
  | .running => m.tiempoEnRunning
  | .blocked => m.tiempoEnBlocked
  | .suspendedReady | .suspendedBlocked => m.tiempoEnSuspended
  | .exit => 0

def ingresos (m : Metricas) : Estado → ℕ
  | .new => m.ingresosANew
  | .ready => m.ingresosAReady
  | .running => m.ingresosARunning
  | .blocked => m.ingresosABlocked
  | .suspendedReady | .suspendedBlocked => m.ingresosASuspended
  | .exit => 0

section Pasos

variable {m : Metricas} {s e : Estado} {d : ℤ} {p : Pcb} {cambios : List (ℤ × Estado)} {u : ℤ}

theorem tiempo_acumular (hs : s ≠ .exit) :
    tiempo (m.acumular e d) s = tiempo m s + if e ∈ juntos s then d else 0 := by
  cases e <;> cases s <;> simp [tiempo, Metricas.acumular, juntos] at hs ⊢

theorem tiempo_ingresar : tiempo (m.ingresar e) s = tiempo m s := by
  cases e <;> cases s <;> rfl

theorem ingresos_acumular : ingresos (m.acumular e d) s = ingresos m s := by
  cases e <;> cases s <;> rfl

theorem ingresos_ingresar (hs : s ≠ .exit) :
    ingresos (m.ingresar e) s = ingresos m s + if e ∈ juntos s then 1 else 0 := by
  cases e <;> cases s <;> simp [ingresos, Metricas.ingresar, juntos] at hs ⊢

theorem cambiarEstado_mismo (h : p.estado = e) : p.cambiarEstado u e = p := if_pos h

theorem cambiarEstado_otro (h : p.estado ≠ e) : (p.cambiarEstado u e).estado = e ∧
    (p.cambiarEstado u e).timestampUltimoCambio = u ∧ (p.cambiarEstado u e).metricas =
      (p.metricas.acumular p.estado (u - p.timestampUltimoCambio)).ingresar e := by
  rw [Pcb.cambiarEstado, if_neg h]
  exact ⟨rfl, rfl, rfl⟩

theorem cambiarEstados_cons :
    cambiarEstados ((u, e) :: cambios) p = cambiarEstados cambios (p.cambiarEstado u e) := rfl

/-- The time kept in the PCB is that of the last change to another state. -/
theorem ultimo_cambiarEstados : (cambiarEstados cambios p).timestampUltimoCambio =
    ultimoCambio p.estado cambios p.timestampUltimoCambio := by
  induction cambios generalizing p with
  | nil => rfl
  | cons x cambios ih =>
    obtain ⟨u, e⟩ := x
    rw [cambiarEstados_cons, ultimoCambio]
    by_cases hmismo : p.estado = e
    · rw [cambiarEstado_mismo hmismo, if_pos hmismo, ih]
    · obtain ⟨hestado, hultimo, -⟩ := cambiarEstado_otro (u := u) hmismo
      rw [if_neg hmismo, ih, hestado, hultimo]

/-- The time of the last change only moves forward. -/
theorem ultimoCambio_le (h : Ordenada p.timestampUltimoCambio cambios) :
    p.timestampUltimoCambio ≤ (cambiarEstados cambios p).timestampUltimoCambio := by
  induction cambios generalizing p with
  | nil => exact le_rfl
  | cons x cambios ih =>
    obtain ⟨u, e⟩ := x
    obtain ⟨hu, hresto⟩ := ordenada_cons.mp h
    rw [cambiarEstados_cons]
    by_cases hmismo : p.estado = e
    · rw [cambiarEstado_mismo hmismo]
      exact ih (ordenada_de_le hu hresto)
    · obtain ⟨-, hultimo, -⟩ := cambiarEstado_otro (u := u) hmismo
      have hsigue := ih (p := p.cambiarEstado u e)
      rw [hultimo] at hsigue
      exact hu.trans (hsigue hresto)

/-- Each time grows by what the history spends in its states, up to the last change. -/
theorem tiempo_cambiarEstados (hs : s ≠ .exit) (h : Ordenada p.timestampUltimoCambio cambios) :
    tiempo (cambiarEstados cambios p).metricas s = tiempo p.metricas s +
      tiempoEn (· ∈ juntos s) p.estado cambios p.timestampUltimoCambio
        (cambiarEstados cambios p).timestampUltimoCambio := by
  induction cambios generalizing p with
  | nil =>
    rw [cambiarEstados, List.foldl_nil, tiempoEn_vacio]
    exact (Int.add_zero _).symm
  | cons x cambios ih =>
    obtain ⟨u, e⟩ := x
    obtain ⟨hu, hresto⟩ := ordenada_cons.mp h
    rw [cambiarEstados_cons]
    by_cases hmismo : p.estado = e
    · rw [cambiarEstado_mismo hmismo, ih (ordenada_de_le hu hresto), ← hmismo,
        tiempoEn_mismo hresto]
    · obtain ⟨hestado, hultimo, hmetricas⟩ := cambiarEstado_otro (u := u) hmismo
      have hsigue := ih (p := p.cambiarEstado u e)
      have hhasta : Ordenada (p.cambiarEstado u e).timestampUltimoCambio cambios →
          (p.cambiarEstado u e).timestampUltimoCambio ≤
            (cambiarEstados cambios (p.cambiarEstado u e)).timestampUltimoCambio :=
        ultimoCambio_le
      rw [hultimo] at hsigue hhasta
      rw [hsigue hresto, hmetricas, hestado, tiempo_ingresar, tiempo_acumular hs,
        tiempoEn_cambio hu (hhasta hresto), add_assoc]
      simp only [decide_eq_true_eq]

/-- Each counter grows by the entries of the history into its states. -/
theorem ingresos_cambiarEstados (hs : s ≠ .exit) :
    ingresos (cambiarEstados cambios p).metricas s =
      ingresos p.metricas s + (entradas p.estado cambios).countP (· ∈ juntos s) := by
  induction cambios generalizing p with
  | nil => rfl
  | cons x cambios ih =>
    obtain ⟨u, e⟩ := x
    rw [cambiarEstados_cons, entradas]
    by_cases hmismo : p.estado = e
    · rw [cambiarEstado_mismo hmismo, if_pos hmismo, ih, hmismo]
    · obtain ⟨hestado, -, hmetricas⟩ := cambiarEstado_otro (u := u) hmismo
      rw [ih, hestado, hmetricas, ingresos_ingresar hs, ingresos_acumular, if_neg hmismo,
        List.countP_cons]
      simp only [decide_eq_true_eq]
      omega

/-- The sum of the times. -/
def total (m : Metricas) : ℤ :=
  m.tiempoEnNew + m.tiempoEnReady + m.tiempoEnRunning + m.tiempoEnBlocked + m.tiempoEnSuspended

theorem total_acumular (he : e ≠ .exit) : total (m.acumular e d) = total m + d := by
  cases e <;> simp only [total, Metricas.acumular] <;> first | omega | exact absurd rfl he

theorem total_ingresar : total (m.ingresar e) = total m := by
  cases e <;> rfl

theorem total_cambiarEstado (hp : p.estado ≠ .exit) :
    total (p.cambiarEstado u e).metricas =
      total p.metricas + ((p.cambiarEstado u e).timestampUltimoCambio -
        p.timestampUltimoCambio) := by
  by_cases hmismo : p.estado = e
  · rw [cambiarEstado_mismo hmismo, sub_self, add_zero]
  · obtain ⟨-, hultimo, hmetricas⟩ := cambiarEstado_otro (u := u) hmismo
    rw [hmetricas, hultimo, total_ingresar, total_acumular hp]

/-- While the process does not leave EXIT, no time is lost. -/
theorem total_cambiarEstados (hp : p.estado ≠ .exit)
    (hsin : ∀ x ∈ cambios.dropLast, x.2 ≠ Estado.exit) :
    total (cambiarEstados cambios p).metricas = total p.metricas +
      ((cambiarEstados cambios p).timestampUltimoCambio - p.timestampUltimoCambio) := by
  induction cambios generalizing p with
  | nil =>
    rw [cambiarEstados, List.foldl_nil, sub_self, add_zero]
  | cons x cambios ih =>
    obtain ⟨u, e⟩ := x
    rw [cambiarEstados_cons]
    cases cambios with
    | nil => exact total_cambiarEstado hp
    | cons y cambios =>
      rw [List.dropLast_cons_of_ne_nil (List.cons_ne_nil y cambios), List.forall_mem_cons] at hsin
      have hq : (p.cambiarEstado u e).estado ≠ .exit := by
        rw [Pcb.estado_cambiarEstado]
        exact hsin.1
      rw [ih hq hsin.2, total_cambiarEstado hp]
      ring

end Pasos

/-- The last change is that of the history, the times add up to the age of the process then, each
is the time that the history spent in the states it covers, and each counter the number of
entries into them. -/
structure Conservados (creacion : ℤ) (cambios : List (ℤ × Estado)) (p : Pcb) : Prop where
  ultimo : p.timestampUltimoCambio = ultimoCambio .new cambios creacion
  total : p.metricas.tiempoEnNew + p.metricas.tiempoEnReady + p.metricas.tiempoEnRunning +
    p.metricas.tiempoEnBlocked + p.metricas.tiempoEnSuspended = p.timestampUltimoCambio - creacion
  tiempoNew : p.metricas.tiempoEnNew =
    tiempoEn (· ∈ [Estado.new]) .new cambios creacion p.timestampUltimoCambio
  tiempoReady : p.metricas.tiempoEnReady =
    tiempoEn (· ∈ [Estado.ready]) .new cambios creacion p.timestampUltimoCambio
  tiempoRunning : p.metricas.tiempoEnRunning =
    tiempoEn (· ∈ [Estado.running]) .new cambios creacion p.timestampUltimoCambio
  tiempoBlocked : p.metricas.tiempoEnBlocked =
    tiempoEn (· ∈ [Estado.blocked]) .new cambios creacion p.timestampUltimoCambio
  tiempoSuspended : p.metricas.tiempoEnSuspended = tiempoEn
    (· ∈ [Estado.suspendedReady, Estado.suspendedBlocked]) .new cambios creacion
    p.timestampUltimoCambio
  ingresosNew : p.metricas.ingresosANew = (.new :: entradas .new cambios).countP (· ∈ [Estado.new])
  ingresosReady : p.metricas.ingresosAReady =
    (.new :: entradas .new cambios).countP (· ∈ [Estado.ready])
  ingresosRunning : p.metricas.ingresosARunning =
    (.new :: entradas .new cambios).countP (· ∈ [Estado.running])
  ingresosBlocked : p.metricas.ingresosABlocked =
    (.new :: entradas .new cambios).countP (· ∈ [Estado.blocked])
  ingresosSuspended : p.metricas.ingresosASuspended =
    (.new :: entradas .new cambios).countP (· ∈ [Estado.suspendedReady, Estado.suspendedBlocked])

/-- The PCB that `crear_pcb` makes. -/
theorem pcb_creado (c : ConfigKernel) (k : Kernel) (path : List Byte) (tamanio : ℤ)
    (absoluto : Option (List Byte)) : ∃ p, (crearPcb c k path tamanio absoluto).pcbs
    k.ultimoPid = some p ∧
      p.estado = .new ∧ p.timestampUltimoCambio = k.reloj ∧ p.metricas = { ingresosANew := 1 } := by
  rw [crearPcb]
  split
  · exact ⟨_, Function.update_self _ _ _, rfl, rfl, rfl⟩
  · exact ⟨_, Function.update_self _ _ _, rfl, rfl, rfl⟩

/-- Time accounting, for every process and every sequence of changes by a clock that does not go
back, at every point up to its entry into EXIT. -/
theorem tiempos_conservados (c : ConfigKernel) (k : Kernel) (path : List Byte) (tamanio : ℤ)
    (absoluto : Option (List Byte)) (cambios : List (ℤ × Estado))
    (hreloj : Ordenada k.reloj cambios)
    (hexit : ∀ x ∈ cambios.dropLast, x.2 ≠ Estado.exit) :
    ∃ p, (crearPcb c k path tamanio absoluto).pcbs k.ultimoPid = some p ∧
      Conservados k.reloj cambios (cambiarEstados cambios p) := by
  obtain ⟨p, hp, hnew, hcreacion, hmetricas⟩ := pcb_creado c k path tamanio absoluto
  refine ⟨p, hp, ?_⟩
  rw [← hcreacion] at hreloj
  have htotal := total_cambiarEstados (hnew ▸ (by decide) : p.estado ≠ .exit) hexit
  have htiempo : ∀ s, s ≠ .exit → tiempo (cambiarEstados cambios p).metricas s = tiempoEn
      (· ∈ juntos s) .new cambios k.reloj (cambiarEstados cambios p).timestampUltimoCambio := by
    intro s hs
    rw [tiempo_cambiarEstados hs hreloj, hmetricas, hnew, hcreacion]
    cases s <;> exact Int.zero_add _
  have hingresos : ∀ s, s ≠ .exit → ingresos (cambiarEstados cambios p).metricas s =
      (.new :: entradas .new cambios).countP (· ∈ juntos s) := by
    intro s hs
    rw [ingresos_cambiarEstados hs, hmetricas, hnew, List.countP_cons, Nat.add_comm]
    cases s <;> rfl
  constructor
  · rw [ultimo_cambiarEstados, hnew, hcreacion]
  · rw [hmetricas, hcreacion] at htotal
    exact htotal.trans (Int.zero_add _)
  · exact htiempo .new (by decide)
  · exact htiempo .ready (by decide)
  · exact htiempo .running (by decide)
  · exact htiempo .blocked (by decide)
  · exact htiempo .suspendedReady (by decide)
  · exact hingresos .new (by decide)
  · exact hingresos .ready (by decide)
  · exact hingresos .running (by decide)
  · exact hingresos .blocked (by decide)
  · exact hingresos .suspendedReady (by decide)

/-- A process that is created at 10, waits for a device while it is suspended and ends at 60. -/
def cambiosEjemplo : List (ℤ × Estado) :=
  [(12, .ready), (15, .running), (20, .blocked), (30, .suspendedBlocked), (30, .suspendedBlocked),
    (45, .suspendedReady), (50, .ready), (50, .running), (60, .exit)]

def configuracionFifo : ConfigKernel := ⟨.fifo, .fifo, 10, 1 / 2, 100⟩

theorem tiempos_conservados_ejemplo : ∃ p,
    (crearPcb configuracionFifo { inicial with reloj := 10 } [] 0 none).pcbs 0 = some p ∧
      Conservados 10 cambiosEjemplo (cambiarEstados cambiosEjemplo p) :=
  tiempos_conservados configuracionFifo { inicial with reloj := 10 } [] 0 none cambiosEjemplo
    (by decide) (by decide)

end KernelMetricas
