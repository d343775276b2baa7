import Tpssoo.MemoriaInvariante

/-!
# Frame ownership

A frame is marked exactly when one entry of one live process holds it, and the free
frames are the ones that no page uses, in every reachable state.
-/
namespace MemoriaMarcos

open MapaDeBits MemoriaEstado MemoriaSwap MemoriaPaginacion MemoriaPeticiones MemoriaFilas
  MemoriaInvariante

variable {cfg : Config} {m : Memoria cfg}

/-- The last-level entry of page `k` of a live process. -/
def EntradaDe (m : Memoria cfg) (pid : ℤ) (k : ℕ) (e : EntradaTabla) : Prop :=
  ∃ p, buscarProceso m.diccionarioProcesos pid = some p ∧ p.entradas[k]? = some e

/-- Page `q.2` of process `q.1` is present in frame `i`. -/
def OcupaMarco (m : Memoria cfg) (i : ℤ) (q : ℤ × ℕ) : Prop :=
  ∃ e, EntradaDe m q.1 q.2 e ∧ e.presente = true ∧ e.numeroMarco = i

def totalPresentes (m : Memoria cfg) : ℕ :=
  (m.diccionarioProcesos.map fun p => contarPaginasPresentes p.tablaNivel1).sum

theorem mem_todas_de_entrada {pid : ℤ} {k : ℕ} {e : EntradaTabla} (h : EntradaDe m pid k e) :
    e ∈ todasEntradas m.diccionarioProcesos := by
  obtain ⟨p, hp, he⟩ := h
  exact List.mem_flatMap.mpr ⟨p, (buscarProceso_some hp).1, List.mem_of_getElem? he⟩

theorem entrada_de_mem (hn : (m.diccionarioProcesos.map Proceso.pid).Nodup) {e : EntradaTabla}
    (h : e ∈ todasEntradas m.diccionarioProcesos) : ∃ pid k, EntradaDe m pid k e := by
  obtain ⟨p, hp, he⟩ := List.mem_flatMap.mp h
  obtain ⟨k, hk⟩ := List.getElem?_of_mem he
  exact ⟨p.pid, k, p, buscarProceso_de_mem hn hp, hk⟩

/-- In a row whose selected values are all different, one value has one index. -/
theorem indice_unico {α β : Type*} {sel : α → Bool} {val : α → β} {xs : List α}
    (hn : ((xs.filter sel).map val).Nodup) {i j : ℕ} {x y : α} (hi : xs[i]? = some x)
    (hj : xs[j]? = some y) (hx : sel x = true) (hy : sel y = true) (hv : val x = val y) :
    i = j := by
  rw [List.Nodup, List.pairwise_map, List.pairwise_filter] at hn
  obtain ⟨hil, rfl⟩ := List.getElem?_eq_some_iff.mp hi
  obtain ⟨hjl, rfl⟩ := List.getElem?_eq_some_iff.mp hj
  rw [List.pairwise_iff_getElem] at hn
  rcases Nat.lt_trichotomy i j with hlt | heq | hgt
  · exact absurd hv (hn i j hil hjl hlt hx hy)
  · exact heq
  · exact absurd hv.symm (hn j i hjl hil hgt hy hx)

/-- Values that are all different across processes come from one page of one process. -/
theorem pagina_unica (sel : EntradaTabla → Bool) {val : EntradaTabla → ℤ}
    (hpids : (m.diccionarioProcesos.map Proceso.pid).Nodup)
    (hn : (((todasEntradas m.diccionarioProcesos : Multiset EntradaTabla).filter
      fun e => sel e = true).map val).Nodup)
    {pid pid' : ℤ} {k k' : ℕ} {e e' : EntradaTabla} (h : EntradaDe m pid k e)
    (h' : EntradaDe m pid' k' e') (hs : sel e = true) (hs' : sel e' = true) (hv : val e = val e') :
    pid = pid' ∧ k = k' := by
  obtain ⟨p, hp, he⟩ := h
  obtain ⟨p', hp', he'⟩ := h'
  have hsep := todasEntradas_separar hpids hp
  rw [hsep, Multiset.filter_add, Multiset.map_add, Multiset.nodup_add] at hn
  obtain ⟨hfila, -, hdisj⟩ := hn
  by_cases hpid : pid = pid'
  · subst hpid
    have hpp : p = p' := Option.some.inj (hp.symm.trans hp')
    subst hpp
    have hfila' : ((p.entradas.filter fun e => sel e).map val).Nodup := by simpa using hfila
    exact ⟨rfl, indice_unico hfila' he he' hs hs' hv⟩
  · have hmem : e' ∈ todasEntradas (quitarProceso m.diccionarioProcesos pid) := by
      obtain ⟨hm', hpid'⟩ := buscarProceso_some hp'
      refine List.mem_flatMap.mpr ⟨p', List.mem_filter.mpr ⟨hm', ?_⟩, List.mem_of_getElem? he'⟩
      simp only [hpid', bne_iff_ne, ne_eq]
      exact fun h => hpid h.symm
    have h₁ : val e ∈ ((p.entradas : Multiset EntradaTabla).filter fun e => sel e = true).map val :=
      Multiset.mem_map_of_mem val (Multiset.mem_filter.mpr ⟨List.mem_of_getElem? he, hs⟩)
    have h₂ : val e' ∈ ((todasEntradas (quitarProceso m.diccionarioProcesos pid) :
        Multiset EntradaTabla).filter fun e => sel e = true).map val :=
      Multiset.mem_map_of_mem val (Multiset.mem_filter.mpr ⟨hmem, hs'⟩)
    exact absurd (hv ▸ h₂) (Multiset.disjoint_left.mp hdisj h₁)

theorem totalPresentes_eq (ps : List (Proceso cfg)) :
    (ps.map fun p => contarPaginasPresentes p.tablaNivel1).sum =
      (marcos (todasEntradas ps : Multiset EntradaTabla)).card := by
  induction ps with
  | nil => rfl
  | cons p ps ih =>
    have hfila : (marcos (p.entradas : Multiset EntradaTabla)).card =
        p.entradas.countP EntradaTabla.presente := by
      rw [card_marcos]
      simp
    rw [todasEntradas_cons, marcos_add, Multiset.card_add, List.map_cons, List.sum_cons, ih,
      contarPaginasPresentes_eq, hfila]

theorem bitmap_marcos_exacto (h : Alcanzable m) :
    (∀ i : ℕ, i < cfg.cantidadMarcos →
      (m.almacen.bitmapMarcos[i]? = some true ↔ ∃! q, OcupaMarco m i q)) ∧
    (∀ i q q', OcupaMarco m i q → OcupaMarco m i q' → q = q') ∧
    (∀ pid k e, EntradaDe m pid k e → e.presente = true →
      0 ≤ e.numeroMarco ∧ e.numeroMarco < cfg.cantidadMarcos) ∧
    contarMarcosLibres m.almacen.bitmapMarcos + totalPresentes m = cfg.cantidadMarcos := by
  have hinv := invariante_de_alcanzable h
  have hmar := hinv.entradas.duenosMarcos
  have hunico : ∀ i q q', OcupaMarco m i q → OcupaMarco m i q' → q = q' := by
    rintro i ⟨pid, k⟩ ⟨pid', k'⟩ ⟨e, he, hp, hm⟩ ⟨e', he', hp', hm'⟩
    obtain ⟨rfl, rfl⟩ := pagina_unica EntradaTabla.presente hinv.pids hmar.1 he he' hp hp'
      (hm.trans hm'.symm)
    rfl
  have hocupa : ∀ i : ℕ, m.almacen.bitmapMarcos[i]? = some true ↔ ∃ q, OcupaMarco m i q := by
    intro i
    have hbit : m.almacen.bitmapMarcos[i]? = some true ↔ Ocupado m.almacen.bitmapMarcos i := by
      simp [Ocupado]
    rw [hbit, ← hmar.2, mem_marcos]
    constructor
    · rintro ⟨e, he, hp, hi⟩
      obtain ⟨pid, k, hek⟩ := entrada_de_mem hinv.pids he
      exact ⟨(pid, k), e, hek, hp, hi⟩
    · rintro ⟨q, e, he, hp, hi⟩
      exact ⟨e, mem_todas_de_entrada he, hp, hi⟩
  refine ⟨fun i _ => ?_, hunico, ?_, ?_⟩
  · rw [hocupa]
    constructor
    · rintro ⟨q, hq⟩
      exact ⟨q, hq, fun q' hq' => hunico i q' q hq' hq⟩
    · rintro ⟨q, hq, -⟩
      exact ⟨q, hq⟩
  · intro pid k e he hp
    exact marco_rango hinv.entradas (mem_todas_de_entrada he) hp
  · rw [totalPresentes, totalPresentes_eq, ← hinv.entradas.bitmap]
    exact libres_add_duenos hmar

/-- Two processes, one of them suspended. -/
theorem bitmap_marcos_exacto_ejemplo :
    ∃ m : Memoria configEjemplo,
      ejecutar (inicial configEjemplo) [(entornoEjemplo, .initProc 1 6 0 []),
        (entornoEjemplo, .initProc 2 4 0 []), (entornoEjemplo, .suspenderProceso 1)] = some m ∧
      contarMarcosLibres m.almacen.bitmapMarcos + totalPresentes m = 4 := by
  refine ⟨_, rfl, ?_⟩
  exact (bitmap_marcos_exacto (alcanzable_ejecutar [(entornoEjemplo, .initProc 1 6 0 []),
    (entornoEjemplo, .initProc 2 4 0 []), (entornoEjemplo, .suspenderProceso 1)] .inicial
      rfl)).2.2.2

end MemoriaMarcos
