import Tpssoo.MemoriaPeticiones

/-!
# Walks as loops over the page row

Every walk of a process' page table ignores the blank entries that stand for missing
subtables, so it is one loop over the row of its last-level entries in page order. What
each handler does to a process is stated here over that row.
-/
namespace MemoriaFilas

open EnterosC Bucles ArbolRadix RangosBytes MapaDeBits MemoriaEstado MemoriaSwap MemoriaPaginacion
  MemoriaPeticiones

variable {cfg : Config} {swap : ℕ → AccesoSwap}

section Suspension

theorem suspenderEntrada_vacia (cfg : Config) (swap : ℕ → AccesoSwap) (r : Recorrido) :
    suspenderEntrada cfg swap r entradaVacia = (r, entradaVacia) := rfl

/-- The walk of `suspender_paginas_recursivo` over a row. -/
def suspenderTodo (cfg : Config) (swap : ℕ → AccesoSwap) (r : Recorrido) (es : List EntradaTabla) :
    Recorrido × List EntradaTabla :=
  bucle (suspenderEntrada cfg swap) r es

theorem suspenderPaginas_eq (env : Entorno) (a : Almacen) (p : Proceso cfg) :
    let r := suspenderTodo cfg env.swap ⟨a, p.metricas, 0⟩ p.entradas
    let s := suspenderPaginas env a p
    s.1 = r.1.almacen ∧ s.2.entradas = r.2 ∧ s.2.metricas = r.1.metricas := by
  obtain ⟨pid, tabla, inst, tam, paginas, metricas⟩ := p
  cases tabla with
  | none => exact ⟨rfl, rfl, rfl⟩
  | some t =>
    obtain ⟨h₁, h₂⟩ := aplanar_recorrer cfg.entradasPorTabla
      (suspenderEntrada_vacia cfg env.swap)
      cfg.nivelesInferiores ⟨a, metricas, 0⟩ t
    exact ⟨congrArg Recorrido.almacen h₁, h₂, congrArg Recorrido.metricas h₁⟩

theorem suspenderPaginas_resto (env : Entorno) (a : Almacen) (p : Proceso cfg) :
    let s := suspenderPaginas env a p
    s.2.pid = p.pid ∧ s.2.tamProceso = p.tamProceso ∧
      s.2.paginasAsignadas = p.paginasAsignadas ∧ s.2.instrucciones = p.instrucciones ∧
      s.2.tablaNivel1.isSome = p.tablaNivel1.isSome := by
  unfold suspenderPaginas
  cases h : p.tablaNivel1 <;> simp [h]

theorem bienFormado_suspenderPaginas (env : Entorno) (a : Almacen) {p : Proceso cfg}
    (h : p.BienFormado) : (suspenderPaginas env a p).2.BienFormado := by
  unfold suspenderPaginas
  cases ht : p.tablaNivel1 with
  | none => exact h
  | some t =>
    intro t' ht'
    cases ht'
    exact forma_recorrer (length_bucle _) (h t ht)

end Suspension

section Desuspension

/-- The body of `desuspender_paginas_recursivo` without its early return. -/
def desuspenderPaso (cfg : Config) (swap : ℕ → AccesoSwap) (r : Recorrido) (e : EntradaTabla) :
    Recorrido × EntradaTabla :=
  (desuspenderEntrada cfg swap r e).2

/-- With no free frame the body does nothing to any entry, so leaving the table early is
the same as going on. -/
theorem desuspenderFila_eq (r : Recorrido) (es : List EntradaTabla) :
    desuspenderFila cfg swap r es = bucle (desuspenderPaso cfg swap) r es := by
  refine bucleMientras_eq_bucle (fun s a h b => ?_) r es
  have hlleno : buscarMarcoLibre s.almacen.bitmapMarcos = -1 := by
    unfold desuspenderEntrada at h
    split at h
    · by_contra hc
      simp [hc] at h
    · simp at h
  unfold desuspenderEntrada
  split
  · simp [hlleno]
  · rfl

theorem desuspenderPaso_vacia (cfg : Config) (swap : ℕ → AccesoSwap) (r : Recorrido) :
    desuspenderPaso cfg swap r entradaVacia = (r, entradaVacia) := rfl

def desuspenderTodo (cfg : Config) (swap : ℕ → AccesoSwap) (r : Recorrido)
    (es : List EntradaTabla) :
    Recorrido × List EntradaTabla :=
  bucle (desuspenderPaso cfg swap) r es

theorem desuspenderPaginas_eq (env : Entorno) (a : Almacen) (p : Proceso cfg) :
    let r := desuspenderTodo cfg env.swap ⟨a, p.metricas, 0⟩ p.entradas
    let s := desuspenderPaginas env a p
    s.1 = r.1.almacen ∧ s.2.entradas = r.2 ∧ s.2.metricas = r.1.metricas := by
  have hfila : desuspenderFila cfg env.swap = bucle (desuspenderPaso cfg env.swap) :=
    funext fun r => funext fun es => desuspenderFila_eq r es
  obtain ⟨pid, tabla, inst, tam, paginas, metricas⟩ := p
  cases tabla with
  | none => exact ⟨rfl, rfl, rfl⟩
  | some t =>
    obtain ⟨h₁, h₂⟩ := aplanar_recorrer cfg.entradasPorTabla
      (desuspenderPaso_vacia cfg env.swap)
      cfg.nivelesInferiores ⟨a, metricas, 0⟩ t
    simp only [desuspenderPaginas, desuspenderPaginasRecursivo, hfila]
    exact ⟨congrArg Recorrido.almacen h₁, h₂, congrArg Recorrido.metricas h₁⟩

theorem desuspenderPaginas_resto (env : Entorno) (a : Almacen) (p : Proceso cfg) :
    let s := desuspenderPaginas env a p
    s.2.pid = p.pid ∧ s.2.tamProceso = p.tamProceso ∧
      s.2.paginasAsignadas = p.paginasAsignadas ∧ s.2.instrucciones = p.instrucciones ∧
      s.2.tablaNivel1.isSome = p.tablaNivel1.isSome := by
  unfold desuspenderPaginas
  cases h : p.tablaNivel1 <;> simp [h]

theorem bienFormado_desuspenderPaginas (env : Entorno) (a : Almacen) {p : Proceso cfg}
    (h : p.BienFormado) : (desuspenderPaginas env a p).2.BienFormado := by
  unfold desuspenderPaginas
  cases ht : p.tablaNivel1 with
  | none => exact h
  | some t =>
    intro t' ht'
    cases ht'
    exact forma_recorrer (length_bucleMientras (f := desuspenderEntrada cfg env.swap)) (h t ht)

end Desuspension

section Lecturas

theorem liberarTablas_eq (a : Almacen) (p : Proceso cfg) :
    liberarTablasProceso cfg a p.tablaNivel1 = p.entradas.foldl liberarEntrada a := by
  obtain ⟨pid, tabla, inst, tam, paginas, metricas⟩ := p
  cases tabla with
  | none => rfl
  | some t => exact plegar_eq_foldl _ entradaVacia (fun _ => rfl) _ _ _

theorem foldl_contar (b : EntradaTabla → Bool) (es : List EntradaTabla) (k : ℕ) :
    es.foldl (contarEntrada b) k = k + es.countP b := by
  induction es generalizing k with
  | nil => rfl
  | cons e es ih =>
    rw [List.foldl_cons, ih, List.countP_cons, contarEntrada]
    split <;> omega

theorem contarPaginasEnSwap_eq (p : Proceso cfg) :
    contarPaginasEnSwap p.tablaNivel1 = p.entradas.countP EntradaTabla.enSwap := by
  obtain ⟨pid, tabla, inst, tam, paginas, metricas⟩ := p
  cases tabla with
  | none => rfl
  | some t =>
    refine (plegar_eq_foldl cfg.entradasPorTabla entradaVacia (fun _ => rfl)
      cfg.nivelesInferiores 0 t).trans ?_
    rw [foldl_contar, Nat.zero_add]
    rfl

theorem contarPaginasPresentes_eq (p : Proceso cfg) :
    contarPaginasPresentes p.tablaNivel1 = p.entradas.countP EntradaTabla.presente := by
  obtain ⟨pid, tabla, inst, tam, paginas, metricas⟩ := p
  cases tabla with
  | none => rfl
  | some t =>
    refine (plegar_eq_foldl cfg.entradasPorTabla entradaVacia (fun _ => rfl)
      cfg.nivelesInferiores 0 t).trans ?_
    rw [foldl_contar, Nat.zero_add]
    rfl

end Lecturas

section Asignacion

/-- The allocator over the blank row of a new process. -/
def asignarFila (cfg : Config) (s : Asignacion) : Bool × Asignacion × List EntradaTabla :=
  bucleMientras (fun s => decide (0 < s.restantes)) asignarEntrada s
    (List.replicate cfg.paginasDireccionables entradaVacia)

theorem asignarPaginas_eq (cfg : Config) (s : Asignacion) :
    let r := asignarPaginasRecursivo cfg s (crearTablaPagina cfg)
    (r.1, r.2.1, aplanar cfg.entradasPorTabla entradaVacia cfg.nivelesInferiores r.2.2) =
      asignarFila cfg s := by
  have h := poblar_crear cfg.entradasPorTabla entradaVacia
    (fun s : Asignacion => decide (0 < s.restantes)) asignarEntrada cfg.nivelesInferiores s
  rw [cfg.niveles_eq] at h
  exact h

theorem bienFormado_crearProceso (bits : List Bool) (pid tam : ℤ) (inst : List Instruccion) :
    (crearProceso cfg bits pid tam inst).1.BienFormado := by
  unfold crearProceso
  dsimp only
  split <;> intro t ht <;> cases ht
  exact forma_poblar (forma_crear _)

end Asignacion

section Diccionario

variable {ps : List (Proceso cfg)} {p q : Proceso cfg} {pid : ℤ}

theorem buscarProceso_some (h : buscarProceso ps pid = some p) : p ∈ ps ∧ p.pid = pid := by
  refine ⟨List.mem_of_find?_eq_some h, ?_⟩
  simpa using List.find?_some h

theorem buscarProceso_none : buscarProceso ps pid = none ↔ ∀ p ∈ ps, p.pid ≠ pid := by
  simp [buscarProceso]

/-- With one process for each PID, every live process is the one its PID finds. -/
theorem buscarProceso_de_mem (hn : (ps.map Proceso.pid).Nodup) (hp : p ∈ ps) :
    buscarProceso ps p.pid = some p := by
  induction ps with
  | nil => cases hp
  | cons q qs ih =>
    rw [List.map_cons, List.nodup_cons] at hn
    rcases List.mem_cons.mp hp with rfl | hp
    · simp [buscarProceso]
    · have hne : q.pid ≠ p.pid := fun h => hn.1 (h ▸ List.mem_map_of_mem hp)
      have := ih hn.2 hp
      simpa [buscarProceso, hne] using this

theorem todasEntradas_cons :
    (todasEntradas (p :: ps) : Multiset EntradaTabla) = ↑p.entradas + ↑(todasEntradas ps) := by
  simp [todasEntradas]

theorem quitar_de_ausente (h : ∀ q ∈ ps, q.pid ≠ pid) : quitarProceso ps pid = ps := by
  simpa [quitarProceso] using h

/-- The entries of all processes, with those of one process set apart. -/
theorem todasEntradas_separar (hn : (ps.map Proceso.pid).Nodup)
    (h : buscarProceso ps pid = some p) :
    (todasEntradas ps : Multiset EntradaTabla) =
      ↑p.entradas + ↑(todasEntradas (quitarProceso ps pid)) := by
  induction ps with
  | nil => simp [buscarProceso] at h
  | cons q qs ih =>
    rw [List.map_cons, List.nodup_cons] at hn
    rw [todasEntradas_cons]
    by_cases hq : q.pid = pid
    · have hpq : q = p := by simpa [buscarProceso, hq] using h
      have hausente : ∀ r ∈ qs, r.pid ≠ pid := fun r hr he =>
        hn.1 (hq ▸ he ▸ List.mem_map_of_mem hr)
      have hquitar : quitarProceso (q :: qs) pid = qs := by
        rw [quitarProceso, List.filter_cons_of_neg (by simpa using hq)]
        exact quitar_de_ausente hausente
      rw [hquitar, hpq]
    · have hquitar : quitarProceso (q :: qs) pid = q :: quitarProceso qs pid := by
        rw [quitarProceso, List.filter_cons_of_pos (by simpa using hq)]
        rfl
      have h' : buscarProceso qs pid = some p := by simpa [buscarProceso, hq] using h
      rw [hquitar, todasEntradas_cons, ih hn.2 h', ← Multiset.add_assoc, ← Multiset.add_assoc,
        Multiset.add_comm (q.entradas : Multiset EntradaTabla)]

theorem pids_modificar : (modificarProceso ps q).map Proceso.pid = ps.map Proceso.pid := by
  rw [modificarProceso, List.map_map]
  refine List.map_congr_left fun r _ => ?_
  by_cases hr : r.pid = q.pid <;> simp [hr]

theorem todasEntradas_modificar (hn : (ps.map Proceso.pid).Nodup)
    (h : buscarProceso ps pid = some p) (hq : q.pid = pid) :
    (todasEntradas (modificarProceso ps q) : Multiset EntradaTabla) =
      ↑q.entradas + ↑(todasEntradas (quitarProceso ps pid)) := by
  have hpids : (modificarProceso ps q).map Proceso.pid = ps.map Proceso.pid := pids_modificar
  have hbusca : buscarProceso (modificarProceso ps q) pid = some q := by
    obtain ⟨hp, hpid⟩ := buscarProceso_some h
    have hmem : q ∈ modificarProceso ps q :=
      List.mem_map.mpr ⟨p, hp, by simp [hpid, hq]⟩
    rw [← hq]
    exact buscarProceso_de_mem (hpids ▸ hn) hmem
  have hquitar : quitarProceso (modificarProceso ps q) pid = quitarProceso ps pid := by
    rw [quitarProceso, quitarProceso, modificarProceso, List.filter_map]
    have hf : ((fun r : Proceso cfg => r.pid != pid) ∘ fun r => if r.pid = q.pid then q else r) =
        fun r => r.pid != pid := by
      funext r
      by_cases hr : r.pid = pid <;> simp [hr, hq]
    rw [hf]
    refine (List.map_congr_left fun r hr => ?_).trans (List.map_id _)
    have : r.pid ≠ pid := by simpa using (List.mem_filter.mp hr).2
    simp [hq, this]
  rw [todasEntradas_separar (hpids ▸ hn) hbusca, hquitar]

end Diccionario

end MemoriaFilas
