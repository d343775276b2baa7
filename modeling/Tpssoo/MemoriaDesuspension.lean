import Tpssoo.MemoriaFallos

/-!
# Bringing a process back

`contar_paginas_en_swap` and `desuspender_paginas_recursivo` are two walks of the same tree. With
as many free frames as the first one counts, the second never meets a full memory: a copy of it
that writes down whether it did says no.
-/
namespace MemoriaDesuspension

open EnterosC Bucles Protocolo ArbolRadix MapaDeBits MemoriaEstado MemoriaSwap MemoriaPaginacion
  MemoriaPeticiones MemoriaFilas MemoriaInvariante MemoriaMarcos MemoriaFallos

variable {cfg : Config} {swap : ℕ → AccesoSwap} {m m' : Memoria cfg} {env : Entorno} {pid : ℤ}

section Anotada

/-- The body of `desuspender_paginas_recursivo`, with whether the memory was ever full. -/
def desuspenderAnotando (cfg : Config) (swap : ℕ → AccesoSwap) (r : Recorrido × Bool)
    (e : EntradaTabla) : Bool × (Recorrido × Bool) × EntradaTabla :=
  let s := desuspenderEntrada cfg swap r.1 e
  (s.1, (s.2.1, r.2 || !s.1), s.2.2)

def desuspenderFilaAnotando (cfg : Config) (swap : ℕ → AccesoSwap) (r : Recorrido × Bool)
    (fila : List EntradaTabla) : (Recorrido × Bool) × List EntradaTabla :=
  (bucleMientras (fun _ => true) (desuspenderAnotando cfg swap) r fila).2

/-- The walk from a state, and whether it took the branch of the full memory. -/
def desuspenderPaginasAnotando (cfg : Config) (swap : ℕ → AccesoSwap) (r : Recorrido)
    (t : Tabla EntradaTabla cfg.nivelesInferiores) :
    (Recorrido × Bool) × Tabla EntradaTabla cfg.nivelesInferiores :=
  recorrer (desuspenderFilaAnotando cfg swap) cfg.nivelesInferiores (r, false) t

/-- The annotation changes nothing. -/
theorem desuspenderPaginasAnotando_eq (r : Recorrido)
    (t : Tabla EntradaTabla cfg.nivelesInferiores) :
    ((desuspenderPaginasAnotando cfg swap r t).1.1, (desuspenderPaginasAnotando cfg swap r t).2) =
      desuspenderPaginasRecursivo cfg swap r t := by
  rw [desuspenderPaginasAnotando, desuspenderPaginasRecursivo]
  refine recorrer_vista Prod.fst (fun r xs => ?_) cfg.nivelesInferiores (r, false) t
  have hfila : _ = bucleMientras (fun _ => true) (desuspenderEntrada cfg swap) r.1 xs :=
    bucleMientras_vista (c := fun _ => true) (h := desuspenderAnotando cfg swap) Prod.fst
      (fun _ => rfl) (fun _ _ => rfl) r xs
  exact congrArg Prod.snd hfila

/-- There is a free frame for each page in swap still to visit, and there always was. -/
def Alcanzan (r : Recorrido × Bool) (es : List EntradaTabla) : Prop :=
  es.countP EntradaTabla.enSwap ≤ r.1.almacen.bitmapMarcos.count false ∧ r.2 = false

theorem alcanzan_paso {r : Recorrido × Bool} {e : EntradaTabla} {es : List EntradaTabla}
    (h : Alcanzan r (e :: es)) :
    (desuspenderAnotando cfg swap r e).1 = true ∧
    Alcanzan (desuspenderAnotando cfg swap r e).2.1 es := by
  obtain ⟨hcabe, hnunca⟩ := h
  rw [List.countP_cons] at hcabe
  by_cases hen : e.enSwap = true
  · rw [if_pos hen] at hcabe
    have hlibre : buscarMarcoLibre r.1.almacen.bitmapMarcos ≠ -1 := by
      intro hllena
      have hcero := buscarMarcoLibre_eq_neg_iff.mp hllena
      omega
    have hcuenta := count_ocuparMarco hlibre
    simp only [desuspenderAnotando, desuspenderEntrada, if_pos hen, if_neg hlibre]
    refine ⟨trivial, ?_, ?_⟩
    · dsimp only
      omega
    · rw [hnunca]
      rfl
  · rw [if_neg hen] at hcabe
    simp only [desuspenderAnotando, desuspenderEntrada, if_neg hen]
    refine ⟨trivial, hcabe, ?_⟩
    rw [hnunca]
    rfl

theorem alcanzan_fila {r : Recorrido × Bool} {xs ys : List EntradaTabla}
    (h : Alcanzan r (xs ++ ys)) : Alcanzan (desuspenderFilaAnotando cfg swap r xs).1 ys := by
  induction xs generalizing r with
  | nil => exact h
  | cons e es ih =>
    obtain ⟨hsigue, hresto⟩ := @alcanzan_paso cfg swap _ _ _ h
    rw [desuspenderFilaAnotando, bucleMientras, if_pos rfl, if_pos hsigue]
    exact ih hresto

/-- The branch of the full memory is not taken when the count fits. -/
theorem nunca_llena {r : Recorrido} {t : Tabla EntradaTabla cfg.nivelesInferiores}
    (h : (aplanar cfg.entradasPorTabla entradaVacia cfg.nivelesInferiores t).countP
      EntradaTabla.enSwap ≤ r.almacen.bitmapMarcos.count false) :
    desuspenderPaginasAnotando cfg swap r t = (((desuspenderPaginasRecursivo cfg swap r t).1, false),
      (desuspenderPaginasRecursivo cfg swap r t).2) := by
  have hvacia : ∀ (r : Recorrido × Bool) (ys : List EntradaTabla),
      Alcanzan r (entradaVacia :: ys) → Alcanzan r ys := by
    intro r ys hr
    rw [Alcanzan, List.countP_cons_of_neg Bool.false_ne_true] at hr
    exact hr
  have hregla := recorrer_regla cfg.entradasPorTabla entradaVacia
    (g := desuspenderFilaAnotando cfg swap) (I := Alcanzan) (fun _ _ _ => alcanzan_fila) hvacia
    cfg.nivelesInferiores (r, false) t []
  have hnunca : (desuspenderPaginasAnotando cfg swap r t).1.2 = false := by
    refine (hregla ?_).2
    rw [List.append_nil]
    exact ⟨h, rfl⟩
  rw [← desuspenderPaginasAnotando_eq, ← hnunca]

end Anotada

section Fila

/-- The pages in swap get the frames in order. -/
def repartir : List EntradaTabla → List ℤ → List EntradaTabla
  | [], _ => []
  | e :: es, [] => e :: es
  | e :: es, i :: is =>
    if e.enSwap then entradaEn i :: repartir es is else e :: repartir es (i :: is)

variable {row : List EntradaTabla} {marcos : List ℤ} {r : Recorrido} {k : ℕ} {e : EntradaTabla}

theorem repartir_nil (row : List EntradaTabla) : repartir row [] = row := by
  cases row <;> rfl

theorem repartir_quieta {es : List EntradaTabla} (h : ¬e.enSwap = true) :
    repartir (e :: es) marcos = e :: repartir es marcos := by
  cases marcos with
  | nil => rw [repartir, repartir_nil]
  | cons i is => rw [repartir, if_neg h]

/-- With enough free frames, each page in swap is put in one that was free, and its slot is
released. -/
theorem desuspenderTodo_eq (h : row.countP EntradaTabla.enSwap ≤
    r.almacen.bitmapMarcos.count false) :
    (desuspenderTodo cfg swap r row).2 = repartir row
        (tomarMarcos (row.countP EntradaTabla.enSwap) r.almacen.bitmapMarcos).1 ∧
      (desuspenderTodo cfg swap r row).1.almacen.bitmapMarcos =
        (tomarMarcos (row.countP EntradaTabla.enSwap) r.almacen.bitmapMarcos).2 ∧
      (desuspenderTodo cfg swap r row).1.almacen.bitmapSwap =
        (row.filter EntradaTabla.enSwap).foldl (fun bits e => liberarSlotSwap bits e.posicionSwap)
          r.almacen.bitmapSwap := by
  induction row generalizing r with
  | nil => exact ⟨rfl, rfl, rfl⟩
  | cons e es ih =>
    rw [desuspenderTodo, bucle]
    by_cases hen : e.enSwap = true
    · rw [List.countP_cons_of_pos hen] at h ⊢
      have hlibre : buscarMarcoLibre r.almacen.bitmapMarcos ≠ -1 := by
        intro hllena
        have hcero := buscarMarcoLibre_eq_neg_iff.mp hllena
        omega
      have hcuenta := count_ocuparMarco hlibre
      obtain ⟨hmarcos, hentrada, hslots⟩ : (desuspenderPaso cfg swap r e).1.almacen.bitmapMarcos =
            ocuparMarco r.almacen.bitmapMarcos (buscarMarcoLibre r.almacen.bitmapMarcos) ∧
          (desuspenderPaso cfg swap r e).2 = entradaEn (buscarMarcoLibre r.almacen.bitmapMarcos) ∧
          (desuspenderPaso cfg swap r e).1.almacen.bitmapSwap =
            liberarSlotSwap r.almacen.bitmapSwap e.posicionSwap := by
        simp only [desuspenderPaso, desuspenderEntrada, if_pos hen, if_neg hlibre]
        exact ⟨trivial, rfl, trivial⟩
      obtain ⟨hfila, hbits, hswap⟩ := ih (r := (desuspenderPaso cfg swap r e).1)
          (by rw [hmarcos]; omega)
      rw [hmarcos] at hfila hbits
      rw [hslots] at hswap
      rw [List.filter_cons_of_pos hen, tomarMarcos, repartir, if_pos hen]
      refine ⟨?_, hbits, hswap⟩
      dsimp only
      rw [hentrada]
      exact congrArg _ hfila
    · rw [List.countP_cons_of_neg hen] at h ⊢
      have hquieto : desuspenderPaso cfg swap r e = (r, e) := by
        rw [desuspenderPaso, desuspenderEntrada, if_neg hen]
      rw [hquieto, List.filter_cons_of_neg hen, repartir_quieta hen]
      obtain ⟨hfila, hbits, hswap⟩ := ih h
      exact ⟨congrArg _ hfila, hbits, hswap⟩

/-- Each entry after the frames have been handed out. -/
theorem repartir_entrada (h : row.countP EntradaTabla.enSwap ≤ marcos.length)
    (he : row[k]? = some e) :
    (e.enSwap = false ∧ (repartir row marcos)[k]? = some e) ∨
      e.enSwap = true ∧ ∃ i ∈ marcos, (repartir row marcos)[k]? = some (entradaEn i) := by
  induction row generalizing marcos k with
  | nil => cases he
  | cons x xs ih =>
    by_cases hx : x.enSwap = true
    · rw [List.countP_cons_of_pos hx] at h
      cases marcos with
      | nil => cases h
      | cons i is =>
        rw [repartir, if_pos hx]
        cases k with
        | zero =>
          cases he
          exact Or.inr ⟨hx, i, List.mem_cons_self, rfl⟩
        | succ k =>
          rcases ih (Nat.le_of_succ_le_succ h) he with hquieta | ⟨hen, j, hj, hget⟩
          · exact Or.inl hquieta
          · exact Or.inr ⟨hen, j, List.mem_cons_of_mem i hj, hget⟩
    · rw [List.countP_cons_of_neg hx] at h
      rw [repartir_quieta hx]
      cases k with
      | zero =>
        cases he
        exact Or.inl ⟨Bool.eq_false_of_not_eq_true hx, rfl⟩
      | succ k => exact ih h he

theorem length_repartir : (repartir row marcos).length = row.length := by
  induction row generalizing marcos with
  | nil => rfl
  | cons x xs ih =>
    by_cases hx : x.enSwap = true
    · cases marcos with
      | nil => rfl
      | cons i is => rw [repartir, if_pos hx, List.length_cons, List.length_cons, ih]
    · rw [repartir_quieta hx, List.length_cons, List.length_cons, ih]

theorem ocupado_liberarTodos {es : List EntradaTabla} {bits : List Bool} {i : ℤ} :
    Ocupado (es.foldl (fun bits e => liberarSlotSwap bits e.posicionSwap) bits) i ↔
      Ocupado bits i ∧ ∀ e ∈ es, i ≠ e.posicionSwap := by
  induction es generalizing bits with
  | nil => simp
  | cons x xs ih => rw [List.foldl_cons, ih, ocupado_liberar, List.forall_mem_cons, and_assoc]

theorem count_tomarMarcos {n : ℕ} {bits : List Bool} (h : n ≤ bits.count false) :
    (tomarMarcos n bits).2.count false + n = bits.count false := by
  induction n generalizing bits with
  | zero => rfl
  | succ n ih =>
    have hlibre : buscarMarcoLibre bits ≠ -1 := by
      intro hllena
      have hcero := buscarMarcoLibre_eq_neg_iff.mp hllena
      omega
    have hcuenta := count_ocuparMarco hlibre
    have hcabe : n ≤ (ocuparMarco bits (buscarMarcoLibre bits)).count false := by omega
    have hresto := ih hcabe
    rw [tomarMarcos]
    dsimp only
    omega

end Fila

/-- The process `p` was brought back: the state and the process after it. -/
structure Traida (env : Entorno) (m : Memoria cfg) (pid : ℤ) (p : Proceso cfg) (m' : Memoria cfg)
    (p' : Proceso cfg) : Prop where
  proceso : buscarProceso m'.diccionarioProcesos pid = some p'
  largo : p'.entradas.length = p.entradas.length
  asignadas : ∀ (k : ℕ) (e : EntradaTabla), p.entradas[k]? = some e → e.asignada = true →
    ∃ e', p'.entradas[k]? = some e' ∧ e'.presente = true ∧ e'.posicionSwap = -1 ∧
      (e.presente = true ∧ e'.numeroMarco = e.numeroMarco ∨
        ¬Ocupado m.almacen.bitmapMarcos e'.numeroMarco)
  sinAsignar : ∀ (k : ℕ) (e : EntradaTabla), p.entradas[k]? = some e → e.asignada = false →
    p'.entradas[k]? = some e
  distintos : ∀ (k k' : ℕ) (e e' : EntradaTabla), p'.entradas[k]? = some e →
    p'.entradas[k']? = some e' → e.presente = true → e'.presente = true →
    e.numeroMarco = e'.numeroMarco → k = k'
  slots : ∀ i, Ocupado m'.almacen.bitmapSwap i ↔
    Ocupado m.almacen.bitmapSwap i ∧ ∀ e ∈ p.entradas, e.enSwap = true → i ≠ e.posicionSwap
  libres : contarMarcosLibres m'.almacen.bitmapMarcos + contarPaginasEnSwap p.tablaNivel1 =
    contarMarcosLibres m.almacen.bitmapMarcos
  sinLlenar : ∀ t, p.tablaNivel1 = some t →
    desuspenderPaginasAnotando cfg env.swap ⟨m.almacen, p.metricas, 0⟩ t =
      (((desuspenderPaginasRecursivo cfg env.swap ⟨m.almacen, p.metricas, 0⟩ t).1, false),
        (desuspenderPaginasRecursivo cfg env.swap ⟨m.almacen, p.metricas, 0⟩ t).2)

section Traer

variable {p : Proceso cfg}

theorem enSwap_de_asignada {e : EntradaTabla} (ha : e.asignada = true) (hp : ¬e.presente = true) :
    e.enSwap = true := by
  rw [EntradaTabla.asignada, Bool.eq_false_of_not_eq_true hp, Bool.false_or] at ha
  rw [EntradaTabla.enSwap, Bool.eq_false_of_not_eq_true hp, ha]
  rfl

/-- The row of the process after it, and the bitmaps. -/
theorem traida_fila (env : Entorno) (a : Almacen)
    (hcabe : contarPaginasEnSwap p.tablaNivel1 ≤ contarMarcosLibres a.bitmapMarcos) :
    (desuspenderPaginas env a p).2.entradas = repartir p.entradas
        (tomarMarcos (contarPaginasEnSwap p.tablaNivel1) a.bitmapMarcos).1 ∧
      (desuspenderPaginas env a p).1.bitmapMarcos =
        (tomarMarcos (contarPaginasEnSwap p.tablaNivel1) a.bitmapMarcos).2 ∧
      (desuspenderPaginas env a p).1.bitmapSwap =
        (p.entradas.filter EntradaTabla.enSwap).foldl
          (fun bits e => liberarSlotSwap bits e.posicionSwap) a.bitmapSwap := by
  rw [contarPaginasEnSwap_eq] at hcabe ⊢
  obtain ⟨halmacen, hfila, -⟩ := desuspenderPaginas_eq env a p
  obtain ⟨hreparto, hmarcos, hslots⟩ :=
    @desuspenderTodo_eq cfg env.swap p.entradas ⟨a, p.metricas, 0⟩ hcabe
  rw [halmacen, hfila]
  exact ⟨hreparto, hmarcos, hslots⟩

theorem traida (h : Alcanzable m) (hp : buscarProceso m.diccionarioProcesos pid = some p)
    (hcabe : contarPaginasEnSwap p.tablaNivel1 ≤ contarMarcosLibres m.almacen.bitmapMarcos) :
    Traida env m pid p (conPaginas m (desuspenderPaginas env m.almacen p))
      (desuspenderPaginas env m.almacen p).2 := by
  have hat : atenderPostHandshake env m (.desuspenderProceso pid) =
      some (responder OpCode.desuspensionOk.codigo,
        conPaginas m (desuspenderPaginas env m.almacen p)) := by
    rw [atenderPostHandshake, manejarDesuspensionProceso, hp]
    dsimp only
    rw [if_neg (Nat.not_lt_of_le hcabe)]
  have hllega : Alcanzable (conPaginas m (desuspenderPaginas env m.almacen p)) :=
    .paso h ⟨env, .desuspenderProceso pid, _, trivial, hat, trivial⟩
  have hpid : (desuspenderPaginas env m.almacen p).2.pid = p.pid :=
    (desuspenderPaginas_resto env m.almacen p).1
  obtain ⟨hfila, hmarcos, hslots⟩ := traida_fila env m.almacen hcabe
  have hexclusion : ∀ e ∈ p.entradas, e.presente = true → e.posicionSwap = -1 := by
    intro e he
    exact (invariante_de_alcanzable h).entradas.exclusion e
      (List.mem_flatMap.mpr ⟨p, (buscarProceso_some hp).1, he⟩)
  have halcanzan : p.entradas.countP EntradaTabla.enSwap ≤
      (tomarMarcos (contarPaginasEnSwap p.tablaNivel1) m.almacen.bitmapMarcos).1.length := by
    rw [length_tomarMarcos, contarPaginasEnSwap_eq]
  have hentrada : ∀ (k : ℕ) (e : EntradaTabla), p.entradas[k]? = some e → _ :=
    fun k e he => repartir_entrada halcanzan he
  rw [← hfila] at hentrada
  obtain ⟨-, hlibres, -⟩ := tomarMarcos_libres hcabe
  constructor
  · exact buscar_conPaginas hp hpid
  · rw [hfila, length_repartir]
  · intro k e he hasignada
    by_cases hpresente : e.presente = true
    · rcases hentrada k e he with ⟨-, hget⟩ | ⟨hen, -⟩
      · exact ⟨e, hget, hpresente, hexclusion e (List.mem_of_getElem? he) hpresente,
          Or.inl ⟨hpresente, rfl⟩⟩
      · rw [EntradaTabla.enSwap, hpresente] at hen
        cases hen
    · rcases hentrada k e he with ⟨hen, -⟩ | ⟨-, i, hi, hget⟩
      · rw [enSwap_de_asignada hasignada hpresente] at hen
        cases hen
      · exact ⟨entradaEn i, hget, rfl, rfl, Or.inr (hlibres i hi).2.2⟩
  · intro k e he hasignada
    rcases hentrada k e he with ⟨-, hget⟩ | ⟨hen, -⟩
    · exact hget
    · have hbits : e.presente = false ∧ e.posicionSwap = -1 := by
        simpa [EntradaTabla.asignada] using hasignada
      rw [EntradaTabla.enSwap, hbits.2] at hen
      simp at hen
  · intro k k' e e' he he' hpres hpres' heq
    have hunico := (bitmap_marcos_exacto hllega).2.1
    have hocupa : ∀ {k : ℕ} {e : EntradaTabla},
        (desuspenderPaginas env m.almacen p).2.entradas[k]? = some e → e.presente = true →
        OcupaMarco (conPaginas m (desuspenderPaginas env m.almacen p)) e.numeroMarco (pid, k) :=
      fun hget hpr => ⟨_, (entradaDe_conPaginas hp hpid).mpr hget, hpr, rfl⟩
    have hpar := hunico e.numeroMarco (pid, k) (pid, k') (hocupa he hpres) (heq ▸ hocupa he' hpres')
    exact congrArg Prod.snd hpar
  · intro i
    have hbitmap : (conPaginas m (desuspenderPaginas env m.almacen p)).almacen.bitmapSwap =
        _ := hslots
    rw [hbitmap, ocupado_liberarTodos]
    refine and_congr_right fun _ => ?_
    constructor
    · exact fun hno e he hen => hno e (List.mem_filter.mpr ⟨he, hen⟩)
    · intro hno e he
      obtain ⟨hmem, hen⟩ := List.mem_filter.mp he
      exact hno e hmem hen
  · have hbitmap : (conPaginas m (desuspenderPaginas env m.almacen p)).almacen.bitmapMarcos = _ :=
      hmarcos
    rw [hbitmap]
    exact count_tomarMarcos hcabe
  · intro t ht
    apply nunca_llena
    have hfilaDe : p.entradas = aplanar cfg.entradasPorTabla entradaVacia
        cfg.nivelesInferiores t := by
      rw [Proceso.entradas, ht]
    rw [contarPaginasEnSwap_eq, hfilaDe] at hcabe
    exact hcabe

end Traer

/-- Bringing a process back is all or nothing. -/
theorem desuspension_todo_o_nada (m : Memoria cfg) (h : Alcanzable m) (env : Entorno) (pid : ℤ)
    (p : Proceso cfg) (hp : buscarProceso m.diccionarioProcesos pid = some p) :
    (contarPaginasEnSwap p.tablaNivel1 ≤ contarMarcosLibres m.almacen.bitmapMarcos →
      ∃ m' p', atenderPostHandshake env m (.desuspenderProceso pid) =
          some (responder OpCode.desuspensionOk.codigo, m') ∧ Traida env m pid p m' p') ∧
    (contarMarcosLibres m.almacen.bitmapMarcos < contarPaginasEnSwap p.tablaNivel1 →
      atenderPostHandshake env m (.desuspenderProceso pid) =
        some (responder OpCode.errorMemoriaInsuficiente.codigo, m)) := by
  constructor
  · intro hcabe
    refine ⟨_, _, ?_, traida h hp hcabe⟩
    rw [atenderPostHandshake, manejarDesuspensionProceso, hp]
    dsimp only
    rw [if_neg (Nat.not_lt_of_le hcabe)]
  · intro hfalta
    rw [atenderPostHandshake, manejarDesuspensionProceso, hp]
    dsimp only
    rw [if_pos hfalta]

/-- One process suspended, another one in two frames: its two pages come back. -/
theorem desuspension_ejemplo : ∃ (m : Memoria configEjemplo) (p : Proceso configEjemplo),
    ejecutar (inicial configEjemplo) [(entornoEjemplo, .initProc 1 6 0 []),
      (entornoEjemplo, .suspenderProceso 1), (entornoEjemplo, .initProc 2 8 0 [])] = some m ∧
    buscarProceso m.diccionarioProcesos 1 = some p ∧
    ∃ m' p', atenderPostHandshake entornoEjemplo m (.desuspenderProceso 1) =
      some (responder OpCode.desuspensionOk.codigo, m') ∧ Traida entornoEjemplo m 1 p m' p' := by
  refine ⟨_, _, rfl, rfl, ?_⟩
  refine (desuspension_todo_o_nada _ (alcanzable_ejecutar [(entornoEjemplo, .initProc 1 6 0 []),
    (entornoEjemplo, .suspenderProceso 1), (entornoEjemplo, .initProc 2 8 0 [])] .inicial rfl)
    entornoEjemplo 1 _ rfl).1 ?_
  decide

end MemoriaDesuspension
