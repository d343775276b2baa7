import Tpssoo.CacheDiferida
import Tpssoo.CpuMemoria

/-!
# Coherent tables

TLB and cache of a burst: every mapping of the TLB and every occupied entry of the cache
belong to the running process and hold a page and a frame in a given relation. The cache
is an instance of a write-back cache over the frames of user memory.
-/
namespace CpuCoherencia

open EnterosC RangosBytes CacheDiferida MemoriaEstado MemoriaPeticiones MemoriaEfectos
  MemoriaAdmision CpuEstado CpuTlb CpuCache CpuAccesos CpuMemoria

variable {cfg : Config} {cpu : Cpu} {m : Memoria cfg} {pid : ℤ} {Q : ℤ → ℤ → Prop}

/-- A frame number that user memory has. -/
def EsMarco (cfg : Config) (marco : ℤ) : Prop := 0 ≤ marco ∧ marco < cfg.cantidadMarcos

/-- The mappings that the tables of `pid` may hold. -/
def Mapeo (cfg : Config) (pid : ℤ) (Q : ℤ → ℤ → Prop) (p pagina marco : ℤ) : Prop :=
  p = pid ∧ Q pagina marco ∧ EsMarco cfg marco

structure EntradaSana (cfg : Config) (pid : ℤ) (Q : ℤ → ℤ → Prop) (e : EntradaCache) : Prop where
  mapeo : Mapeo cfg pid Q e.pid e.pagina e.marco
  largo : e.contenido.length = cfg.tamPagina

structure CacheSana (cfg : Config) (pid : ℤ) (Q : ℤ → ℤ → Prop) (c : Cache) : Prop where
  entradas : ∀ e ∈ c.entradas, e.ocupado = true → EntradaSana cfg pid Q e
  puntero : c.entradas ≠ [] → c.puntero < c.entradas.length

/-- A state of Memoria with one process under each PID and its user memory whole. -/
structure Integra (m : Memoria cfg) : Prop where
  pids : (m.diccionarioProcesos.map Proceso.pid).Nodup
  largo : m.almacen.memoriaUsuario.length = cfg.tamMemoria

theorem Integra.con {m' : Memoria cfg} {r : ℕ → List Byte} (h : Integra m) (hm : ConMarcos m m' r) :
    Integra m' where
  pids := pids_procesos hm.procesos ▸ h.pids
  largo := hm.largo

theorem Integra.quieta {m' : Memoria cfg} (h : Integra m) (hq : Quieta m m') : Integra m' :=
  h.con (hq.conMarcos h.largo)

section Lineas

variable {c c' : Cache} {e e' : EntradaCache} {i : ℕ}

/-- An entry as a line of the write-back cache, keyed by its frame. -/
def linea (e : EntradaCache) : Option (Linea ℕ (List Byte)) :=
  if e.ocupado then some ⟨e.marco.toNat, e.contenido, e.bitModificado⟩ else none

def lineas (c : Cache) : List (Option (Linea ℕ (List Byte))) := c.entradas.map linea

theorem linea_sinUso (h : sinUso e' = sinUso e) : linea e' = linea e := by
  change linea (sinUso e') = linea (sinUso e)
  rw [h]

theorem entradaSana_sinUso (h : sinUso e' = sinUso e) (he : EntradaSana cfg pid Q e) :
    EntradaSana cfg pid Q e' := by
  have hs : EntradaSana cfg pid Q (sinUso e) := ⟨he.mapeo, he.largo⟩
  rw [← h] at hs
  exact ⟨hs.mapeo, hs.largo⟩

theorem ocupado_sinUso (h : sinUso e' = sinUso e) : e'.ocupado = e.ocupado := by
  change (sinUso e').ocupado = (sinUso e).ocupado
  rw [h]

theorem lineas_sinUso {es es' : List EntradaCache} (h : es'.map sinUso = es.map sinUso) :
    es'.map linea = es.map linea := by
  have hmap : ∀ xs : List EntradaCache, xs.map linea = (xs.map sinUso).map linea := by
    intro xs
    rw [List.map_map]
    rfl
  rw [hmap, h, ← hmap]

/-- The entry of the same index before the use bits changed. -/
theorem entrada_soloUso (h : SoloUso c c') (hi : c'.entradas[i]? = some e') :
    ∃ e, c.entradas[i]? = some e ∧ sinUso e' = sinUso e := by
  have hmap := congrArg (·[i]?) h
  simp only [List.getElem?_map, hi, Option.map_some] at hmap
  obtain ⟨e, he, heq⟩ := Option.map_eq_some_iff.mp hmap.symm
  exact ⟨e, he, heq.symm⟩

theorem sanas_sinUso {es es' : List EntradaCache} (h : es'.map sinUso = es.map sinUso)
    (hes : ∀ e ∈ es, e.ocupado = true → EntradaSana cfg pid Q e) :
    ∀ e ∈ es', e.ocupado = true → EntradaSana cfg pid Q e := by
  intro e' he' hoc
  have hmem : sinUso e' ∈ es.map sinUso := h ▸ List.mem_map_of_mem he'
  obtain ⟨e, he, heq⟩ := List.mem_map.mp hmem
  exact entradaSana_sinUso heq.symm (hes e he ((ocupado_sinUso heq).trans hoc))

theorem sanas_set {es : List EntradaCache} (hes : ∀ e ∈ es, e.ocupado = true →
    EntradaSana cfg pid Q e)
    (he : EntradaSana cfg pid Q e) :
    ∀ x ∈ es.set i e, x.ocupado = true → EntradaSana cfg pid Q x := by
  intro x hx hoc
  rcases List.mem_or_eq_of_mem_set hx with hx | rfl
  · exact hes x hx hoc
  · exact he

/-- An entry changed in its place. -/
theorem cacheSana_set (hc : CacheSana cfg pid Q c) (he : EntradaSana cfg pid Q e) :
    CacheSana cfg pid Q { c with entradas := c.entradas.set i e } where
  entradas := sanas_set hc.entradas he
  puntero := by
    intro hne
    change c.puntero < (c.entradas.set i e).length
    rw [List.length_set]
    apply hc.puntero
    rintro hnil
    exact hne (by simp [hnil])

theorem linea_some {c : Cache} {l : Linea ℕ (List Byte)} (h : (lineas c)[i]? = some (some l)) :
    ∃ e, c.entradas[i]? = some e ∧ e.ocupado = true ∧
      l = ⟨e.marco.toNat, e.contenido, e.bitModificado⟩ := by
  rw [lineas, List.getElem?_map] at h
  obtain ⟨e, he, hl⟩ := Option.map_eq_some_iff.mp h
  rw [linea] at hl
  split at hl
  · rename_i hoc
    cases hl
    exact ⟨e, he, hoc, rfl⟩
  · cases hl

theorem linea_entrada {c : Cache} (he : c.entradas[i]? = some e) (hoc : e.ocupado = true) :
    (lineas c)[i]? = some (some ⟨e.marco.toNat, e.contenido, e.bitModificado⟩) := by
  rw [lineas, List.getElem?_map, he, Option.map_some, linea, if_pos hoc]

end Lineas

section Busquedas

variable {c : Cache} {pagina : ℤ} {i : ℕ}

theorem obtenerEntrada_some (h : obtenerEntradaCache c pid pagina = some i) :
    ∃ e, c.entradas[i]? = some e ∧ e.ocupado = true ∧ e.pid = pid ∧ e.pagina = pagina := by
  obtain ⟨hlt, hp, -⟩ := List.findIdx?_eq_some_iff_getElem.mp h
  simp only [Bool.and_eq_true, beq_iff_eq] at hp
  exact ⟨c.entradas[i], List.getElem?_eq_getElem hlt, hp.1.1, hp.1.2, hp.2⟩

theorem obtenerEntrada_none (h : obtenerEntradaCache c pid pagina = none) {e : EntradaCache}
    (he : e ∈ c.entradas) (hoc : e.ocupado = true) (hpid : e.pid = pid) : e.pagina ≠ pagina := by
  have hno := List.findIdx?_eq_none_iff.mp h e he
  intro hpag
  simp [hoc, hpid, hpag] at hno

end Busquedas

section Escrituras

variable {c : Cache} {e : EntradaCache}

variable (cpu) in
/-- The write-back of an occupied entry. -/
theorem escribirModificada_ok (hm : Integra m) (he : EntradaSana cfg pid Q e)
    (hoc : e.ocupado = true) :
    ∃ m', escribirModificada cpu m e pid = some m' ∧ ConMarcos m m'
      (volcar (vista m) (linea e)) := by
  obtain ⟨-, -, hmarco, hmax⟩ := he.mapeo
  obtain ⟨f, hf⟩ := Int.eq_ofNat_of_zero_le hmarco
  have hf' : f < cfg.cantidadMarcos := by omega
  have hlinea : linea e = some ⟨f, e.contenido, e.bitModificado⟩ := by
    rw [linea, if_pos hoc, hf, Int.toNat_natCast]
  rw [hlinea]
  cases hmod : e.bitModificado with
  | false =>
    refine ⟨m, ?_, rfl, rfl, hm.largo, rfl⟩
    rw [escribirModificada, hmod, if_neg Bool.false_ne_true]
  | true =>
    obtain ⟨m', hesc, hcon⟩ := escribirBytes_marco cpu pid hm.pids hm.largo hf'
      (Nat.zero_add cfg.tamPagina).le he.largo.ge
    refine ⟨m', ?_, ?_⟩
    · rw [escribirModificada, hmod, if_pos rfl, enviarPaginaAMemoriaPrincipal, hf]
      exact hesc
    · have hlargo := length_marcosDe hm.largo hf'
      rw [List.take_of_length_le he.largo.le, escribirRango_todo
        (hlargo.trans he.largo.symm)] at hcon
      exact hcon

variable {nueva : EntradaCache}

/-- Insertion in a cache with entries: one slot gets the new line, and what it held is
written back. -/
theorem insertar_ok (hm : Integra m) (hc : CacheSana cfg pid Q c) (hne : c.entradas ≠ [])
    (halg : cpu.algoritmoCache ≠ .otro ∨ ∃ e ∈ c.entradas, e.ocupado = false) {pagina marco : ℤ}
    {contenido : List Byte} {modificado : Bool}
    (hnueva : EntradaSana cfg pid Q ⟨true, pid, pagina, contenido, true, modificado, marco⟩) :
    ∃ i o c' m', insertarEnCache cpu c m pid pagina marco contenido modificado = some (c', m') ∧
      (lineas c)[i]? = some o ∧
      lineas c' = (lineas c).set i (some ⟨marco.toNat, contenido, modificado⟩) ∧
      CacheSana cfg pid Q c' ∧ c'.entradas ≠ [] ∧ ConMarcos m m' (volcar (vista m) o) := by
  have hp := hc.puntero hne
  -- what a replacement at `i` of a cache that differs in use bits does
  have hreemplazo : ∀ (c₁ : Cache) (i : ℕ), SoloUso c c₁ →
      lineas (aplicarReemplazoCache c₁ i pid pagina marco contenido modificado) =
        (lineas c).set i (some ⟨marco.toNat, contenido, modificado⟩) ∧
      (∀ e ∈ (aplicarReemplazoCache c₁ i pid pagina marco contenido modificado).entradas,
        e.ocupado = true → EntradaSana cfg pid Q e) ∧
      (aplicarReemplazoCache c₁ i pid pagina marco contenido modificado).entradas.length =
        c.entradas.length := by
    intro c₁ i hs
    refine ⟨?_, ?_, ?_⟩
    · rw [lineas, lineas, aplicarReemplazoCache, List.map_set, lineas_sinUso hs]
      rfl
    · exact sanas_set (sanas_sinUso hs hc.entradas) hnueva
    · rw [aplicarReemplazoCache, List.length_set, soloUso_length hs]
  have hvacia : ∀ c' : Cache, c'.entradas.length = c.entradas.length → c'.entradas ≠ [] := by
    intro c' hlen hnil
    rw [hnil, List.length_nil] at hlen
    omega
  rw [insertarEnCache, if_neg hne]
  cases hlibre : c.entradas.findIdx? fun e => !e.ocupado with
  | some i =>
    obtain ⟨hlt, hoc, -⟩ := List.findIdx?_eq_some_iff_getElem.mp hlibre
    obtain ⟨hl, hs, hlen⟩ := hreemplazo c i rfl
    refine ⟨i, none, _, m, rfl, ?_, hl, ⟨hs, ?_⟩, hvacia _ hlen, rfl, rfl, hm.largo, rfl⟩
    · rw [lineas, List.getElem?_map, List.getElem?_eq_getElem hlt, Option.map_some, linea,
        if_neg (by simpa using hoc)]
    · intro _
      rw [hlen]
      exact hp
  | none =>
    have hocupadas : ∀ (i : ℕ) (e : EntradaCache), c.entradas[i]? = some e →
        e.ocupado = true ∧ EntradaSana cfg pid Q e := by
      intro i e he
      have hmem := List.mem_of_getElem? he
      have hoc : e.ocupado = true := by
        simpa using List.findIdx?_eq_none_iff.mp hlibre e hmem
      exact ⟨hoc, hc.entradas e hmem hoc⟩
    dsimp only
    -- the victim that both clocks hand over, and its write-back
    have hvictima : ∀ (v : ℕ) (c₁ : Cache), SoloUso c c₁ → v < c.entradas.length →
        ∃ e e₁ m', c.entradas[v]? = some e ∧ c₁.entradas[v]? = some e₁ ∧ e₁.ocupado = true ∧
          escribirModificada cpu m e₁ pid = some m' ∧ ConMarcos m m'
            (volcar (vista m) (linea e)) := by
      intro v c₁ hs hv
      have hv₁ : v < c₁.entradas.length := by
        rw [soloUso_length hs]
        exact hv
      have he₁ := List.getElem?_eq_getElem hv₁
      obtain ⟨e, he, heq⟩ := entrada_soloUso hs he₁
      obtain ⟨hoc, hsana⟩ := hocupadas v e he
      have hoc₁ := (ocupado_sinUso heq).trans hoc
      obtain ⟨m', hesc, hcon⟩ := escribirModificada_ok cpu hm (entradaSana_sinUso heq hsana) hoc₁
      rw [linea_sinUso heq] at hcon
      exact ⟨e, _, m', he, he₁, hoc₁, hesc, hcon⟩
    cases hcual : cpu.algoritmoCache with
    | otro =>
      rcases halg with halg | ⟨e, he, hoc⟩
      · exact absurd hcual halg
      · obtain ⟨i, hi⟩ := List.mem_iff_getElem?.mp he
        rw [(hocupadas i e hi).1] at hoc
        cases hoc
    | clock =>
      obtain ⟨⟨v, c₁⟩, hclock⟩ := clock_termina hp
      obtain ⟨hs, hv, hq⟩ := clock_soloUso hclock hp
      obtain ⟨e, e₁, m', he, he₁, hoc, hesc, hcon⟩ := hvictima v c₁ hs hv
      obtain ⟨hl, hsanas, hlen⟩ := hreemplazo c₁ v hs
      refine ⟨v, linea e, aplicarReemplazoCache c₁ v pid pagina marco contenido modificado,
        m', ?_, ?_,
        hl, ⟨hsanas, ?_⟩, hvacia _ hlen, hcon⟩
      · simp only [seleccionarVictimaCache, hcual, hclock, he₁, hoc, hesc, if_true,
          Option.bind_eq_bind,
          Option.bind_some, Option.pure_def]
      · rw [lineas, List.getElem?_map, he, Option.map_some]
      · intro _
        rw [hlen]
        exact hq
    | clockM =>
      obtain ⟨⟨v, c₁⟩, hclock⟩ := clockM_termina hp
      obtain ⟨hs, hv⟩ := clockM_soloUso hclock hp
      obtain ⟨e, e₁, m', he, he₁, hoc, hesc, hcon⟩ := hvictima v c₁ hs hv
      obtain ⟨hl, hsanas, hlen⟩ := hreemplazo c₁ v hs
      refine ⟨v, linea e, { aplicarReemplazoCache c₁ v pid pagina marco contenido modificado with
        puntero := (v + 1) % c.entradas.length }, m', ?_, ?_, hl, ⟨hsanas, ?_⟩, hvacia _ hlen, hcon⟩
      · simp only [seleccionarVictimaCache, hcual, hclock, he₁, hesc, Option.bind_eq_bind,
          Option.bind_some, Option.pure_def]
      · rw [lineas, List.getElem?_map, he, Option.map_some]
      · intro _
        change (v + 1) % c.entradas.length <
          (aplicarReemplazoCache c₁ v pid pagina marco contenido modificado).entradas.length
        rw [hlen]
        exact Nat.mod_lt _ (by omega)

/-- A full cache with an unknown algorithm stays as it is. -/
theorem insertar_otro (halg : cpu.algoritmoCache = .otro)
    (hllena : ∀ e ∈ c.entradas, e.ocupado = true)
    (pagina marco : ℤ) (contenido : List Byte) (modificado : Bool) :
    insertarEnCache cpu c m pid pagina marco contenido modificado = some (c, m) := by
  have hlibre : c.entradas.findIdx? (fun e => !e.ocupado) = none := by
    rw [List.findIdx?_eq_none_iff]
    intro e he
    rw [hllena e he]
    rfl
  rw [insertarEnCache]
  split
  · rfl
  · rw [hlibre]
    dsimp only
    rw [seleccionarVictimaCache, halg]

variable (cpu) in
/-- The final cleaning writes every dirty line back and empties every entry. -/
theorem limpiarEntradas_ok {es : List EntradaCache} (hm : Integra m)
    (hes : ∀ e ∈ es, e.ocupado = true → EntradaSana cfg pid Q e) :
    ∃ es' m', limpiarEntradas cpu pid es m = some (es', m') ∧
      ConMarcos m m' ((es.map linea).foldl volcar (vista m)) ∧
      es'.length = es.length ∧ ∀ e ∈ es', e.ocupado = false := by
  induction es generalizing m with
  | nil =>
    refine ⟨[], m, rfl, ⟨rfl, rfl, hm.largo, rfl⟩, rfl, ?_⟩
    intro e he
    cases he
  | cons e es ih =>
    have hresto : ∀ x ∈ es, x.ocupado = true → EntradaSana cfg pid Q x := by
      intro x hx
      exact hes x (List.mem_cons_of_mem _ hx)
    cases hoc : e.ocupado with
    | true =>
      have hsana := hes e List.mem_cons_self hoc
      obtain ⟨m₁, hesc, hcon⟩ := escribirModificada_ok cpu hm hsana hoc
      obtain ⟨es', m', hlimpia, hcon', hlen, hlibres⟩ := ih (hm.con hcon) hresto
      refine ⟨entradaLimpia :: es', m', ?_, ?_, ?_, ?_⟩
      · have hpid : (e.ocupado && e.pid == pid) = true := by
          rw [hoc, hsana.mapeo.1]
          simp
        simp only [limpiarEntradas, hpid, if_true, hesc, hlimpia, Option.bind_eq_bind,
          Option.bind_some, Option.pure_def]
      · rw [hcon.marcos] at hcon'
        exact hcon.trans hcon'
      · simp [hlen]
      · intro x hx
        rcases List.mem_cons.mp hx with rfl | hx
        · rfl
        · exact hlibres x hx
    | false =>
      obtain ⟨es', m', hlimpia, hcon', hlen, hlibres⟩ := ih hm hresto
      refine ⟨e :: es', m', ?_, ?_, ?_, ?_⟩
      · simp only [limpiarEntradas, hoc, Bool.false_and, Bool.false_eq_true, if_false, hlimpia,
          Option.bind_eq_bind, Option.bind_some, Option.pure_def]
      · have hlinea : linea e = none := by
          rw [linea, hoc]
          rfl
        rw [List.map_cons, List.foldl_cons, hlinea]
        exact hcon'
      · simp [hlen]
      · intro x hx
        rcases List.mem_cons.mp hx with rfl | hx
        · exact hoc
        · exact hlibres x hx

end Escrituras

section Traduccion

variable {s s' : EstadoCpu cfg} {dl : ℤ} {alAcertar : Tlb → ℕ → Tlb}

/-- What the callers do to the entry that hit leaves the mappings alone. -/
def SoloMarca (alAcertar : Tlb → ℕ → Tlb) : Prop :=
  ∀ (P : ℤ → ℤ → ℤ → Prop) (t : Tlb) (i : ℕ), TodoTlb P t → TodoTlb P (alAcertar t i)

theorem soloMarca_nada : SoloMarca fun t _ => t := by
  intro P t i h
  exact h

theorem soloMarca_timestamp : SoloMarca (marcarTimestamp cpu) := by
  intro P t i h
  exact todoTlb_marcar h

/-- On a hit the mapping of the TLB is the answer. -/
theorem obtenerMarco_acierto (cpu : Cpu) (hal : SoloMarca alAcertar) {i : ℕ}
    (h : indiceTlb s.tlb.entradas pid (obtenerPagina cfg dl) = some i) :
    ∃ marco t, obtenerMarco cpu s pid dl alAcertar = some (some marco, { s with tlb := t }) ∧
      Mapea s.tlb i pid (obtenerPagina cfg dl) marco ∧
      ∀ P : ℤ → ℤ → ℤ → Prop, TodoTlb P s.tlb → TodoTlb P t := by
  rcases buscarEnTlb_cases cpu s.tlb pid (obtenerPagina cfg dl) with
    ⟨hfalla, -⟩ | ⟨j, t, marco, hacierto, hb, hmapea, ht⟩
  · rw [h] at hfalla
    cases hfalla
  · rw [h] at hacierto
    cases hacierto
    have hentrada : Mapea t i pid (obtenerPagina cfg dl) marco := by
      rcases ht with rfl | rfl
      · exact hmapea
      · exact mapea_marcar.mpr hmapea
    have htodo : ∀ P : ℤ → ℤ → ℤ → Prop, TodoTlb P s.tlb → TodoTlb P t := by
      intro P hP
      rcases ht with rfl | rfl
      · exact hP
      · exact todoTlb_marcar hP
    obtain ⟨ts, hts⟩ := hentrada
    refine ⟨marco, alAcertar t i, ?_, hmapea, fun P hP => hal P t i (htodo P hP)⟩
    rw [obtenerMarco, hb]
    simp only [hts, Option.bind_eq_bind, Option.bind_some, Option.pure_def]

/-- On a miss the answer of Memoria decides. -/
theorem obtenerMarco_falla (cpu : Cpu) (alAcertar : Tlb → ℕ → Tlb)
    (h : indiceTlb s.tlb.entradas pid (obtenerPagina cfg dl) = none) :
    obtenerMarco cpu s pid dl alAcertar =
      (pedirTraduccionAMemoria cpu s.memoria pid dl).map fun r =>
        if r.1 = -1 then (none, { s with memoria := r.2 })
        else (some r.1, { s with
          tlb := agregarATlb cpu s.tlb pid (obtenerPagina cfg dl) r.1
          memoria := r.2 }) := by
  rw [obtenerMarco]
  rcases buscarEnTlb_cases cpu s.tlb pid (obtenerPagina cfg dl) with
    ⟨-, hb⟩ | ⟨i, t, marco, hacierto, -⟩
  · rw [hb]
    dsimp only
    rcases pedirTraduccionAMemoria cpu s.memoria pid dl with _ | ⟨marco, m⟩
    · rfl
    · rw [Option.bind_eq_bind, Option.bind_some, Option.map_some]
      by_cases hmarco : marco = -1
      · rw [if_pos hmarco, if_pos hmarco]
        rfl
      · rw [if_neg hmarco, if_neg hmarco]
        rfl
  · rw [h] at hacierto
    cases hacierto

end Traduccion

end CpuCoherencia
