import Tpssoo.CpuCoherencia
import Tpssoo.MemoriaMarcos

/-!
# Bursts of one process

What the tables of a burst hold: pages that Memoria translated for the process, all of
them in a set that the accesses of the burst stay in. Memoria itself keeps its invariant
and the page table of the process.
-/
namespace CpuRafagas

open EnterosC Protocolo ArbolRadix RangosBytes MemoriaEstado MemoriaTraduccion MemoriaPeticiones
open MemoriaFilas
  MemoriaEfectos MemoriaInvariante MemoriaMarcos MemoriaAdmision CpuEstado CpuTlb CpuCache
  CpuAccesos CpuMemoria CpuCoherencia

variable {cfg : Config} {cpu : Cpu} {pid : ℤ} {p : Proceso cfg} {U : ℤ → Prop}

/-- A page number and the frame that Memoria translates an accepted address of it to. -/
def Traducida (p : Proceso cfg) (pagina marco : ℤ) : Prop :=
  ∃ dl, Acepta p dl ∧ obtenerPagina cfg dl = pagina ∧ traducir p dl = some (.traduccionOk marco)

/-- The translations of the pages in `U`. -/
def TraducidaEn (p : Proceso cfg) (U : ℤ → Prop) (pagina marco : ℤ) : Prop :=
  Traducida p pagina marco ∧ U pagina

section Traducciones

variable {dl dl' marco pagina : ℤ}

theorem traducir_acepta (h : traducir p dl = some (.traduccionOk marco)) : Acepta p dl := by
  by_contra hac
  rw [traducir, if_neg hac] at h
  cases h

theorem traducir_fuera (h : ¬ Acepta p dl) : traducir p dl = some .paginaFueraDeRango := by
  rw [traducir, if_neg h]

/-- Two accepted addresses of one page are translated alike. -/
theorem traducir_misma_pagina (h : Acepta p dl) (h' : Acepta p dl')
    (hpag : obtenerPagina cfg dl = obtenerPagina cfg dl') : traducir p dl = traducir p dl' := by
  rw [obtenerPagina, obtenerPagina] at hpag
  rw [traducir, traducir, if_pos h, if_pos h', hpag]

theorem traducir_de_traducida (hac : Acepta p dl) (h : Traducida p (obtenerPagina cfg dl) marco) :
    traducir p dl = some (.traduccionOk marco) := by
  obtain ⟨dl', hac', hpag, htrad⟩ := h
  rw [traducir_misma_pagina hac hac' hpag.symm]
  exact htrad

/-- The loop over the levels that a translation is. -/
theorem traducir_buscar (h : traducir p dl = some (.traduccionOk marco)) :
    ∃ t e, p.tablaNivel1 = some t ∧
      buscar (digito cfg (dl.tdiv cfg.tamPagina).toNat) cfg.nivelesInferiores t = some e ∧
      e.presente = true ∧ e.numeroMarco = marco := by
  have hn : cfg.nivelesInferiores < cfg.cantidadNiveles := by
    have := cfg.niveles_eq
    omega
  rw [traducir, if_pos (traducir_acepta h)] at h
  by_cases hbits : cfg.nivelesInferiores * cfg.bitsPorNivel < 32
  · rw [recorrerNiveles_eq hn hbits, Option.map_some, Option.some_inj] at h
    cases ht : p.tablaNivel1 with
    | none =>
      rw [ht] at h
      cases h
    | some t =>
      rw [ht, Option.bind_some] at h
      cases hb : buscar (digito cfg (dl.tdiv cfg.tamPagina).toNat) cfg.nivelesInferiores t with
      | none =>
        rw [hb] at h
        cases h
      | some e =>
        rw [hb, resultadoDeEntrada] at h
        split at h
        · rename_i hpres
          cases h
          exact ⟨t, e, rfl, hb, hpres, rfl⟩
        · cases h
  · rw [recorrerNiveles_indefinido hn (not_lt.mp hbits)] at h
    cases h

/-- The frames assigned to a process. -/
def MarcoAsignado (p : Proceso cfg) (marco : ℤ) : Prop :=
  ∃ e ∈ p.entradas, e.presente = true ∧ e.numeroMarco = marco

/-- A translation ends in a frame of the process. -/
theorem asignado_de_traducir (h : traducir p dl = some (.traduccionOk marco)) :
    MarcoAsignado p marco := by
  obtain ⟨t, e, ht, hb, hpres, hmarco⟩ := traducir_buscar h
  refine ⟨e, ?_, hpres, hmarco⟩
  rw [Proceso.entradas, ht]
  exact mem_aplanar_buscar _ _ _ hb

/-- Below the addressable pages the entry is the one of the page. -/
theorem entrada_de_traducir (hforma : p.BienFormado) (h : traducir p dl =
    some (.traduccionOk marco))
    (hdir : (dl.tdiv cfg.tamPagina).toNat < cfg.paginasDireccionables) :
    ∃ e, p.entradas[(dl.tdiv cfg.tamPagina).toNat]? = some e ∧ e.presente = true ∧
      e.numeroMarco = marco := by
  obtain ⟨t, e, ht, hb, hpres, hmarco⟩ := traducir_buscar h
  refine ⟨e, ?_, hpres, hmarco⟩
  rw [Proceso.entradas, ht]
  dsimp only
  rw [getD_buscar entradaVacia (digito cfg (dl.tdiv cfg.tamPagina).toNat) (hforma t ht)
    (by rw [cfg.niveles_eq]; exact hdir) (fun k _ => rfl), hb, Option.getD_some]

/-- Two addressable pages are not translated to one frame. -/
theorem traducida_unica {m : Memoria cfg} {q : Proceso cfg} (hinv : Invariante m)
    (hq : buscarProceso m.diccionarioProcesos pid = some q) (hpq : MismasPaginas p q) {a b : ℤ}
    (ha : Traducida p a marco) (hb : Traducida p b marco) (ha' : a < cfg.paginasDireccionables)
    (hb' : b < cfg.paginasDireccionables) : a = b := by
  have hpos := tamPagina_int_pos cfg
  have hentrada : ∀ c : ℤ, Traducida p c marco → c < cfg.paginasDireccionables →
      0 ≤ c ∧ ∃ e, EntradaDe m pid c.toNat e ∧ e.presente = true ∧ e.numeroMarco = marco := by
    rintro c ⟨dl, hac, rfl, htrad⟩ hc
    have hcero : 0 ≤ obtenerPagina cfg dl := Int.tdiv_nonneg hac.2 hpos.le
    rw [← traducir_mismas hpq] at htrad
    obtain ⟨e, he, hpres, hmarco⟩ := entrada_de_traducir
      (hinv.formas q (buscarProceso_some hq).1) htrad (by rw [obtenerPagina] at hc hcero; omega)
    exact ⟨hcero, e, ⟨q, hq, he⟩, hpres, hmarco⟩
  obtain ⟨ha₀, e, he, hpres, hmarco⟩ := hentrada a ha ha'
  obtain ⟨hb₀, e', he', hpres', hmarco'⟩ := hentrada b hb hb'
  obtain ⟨-, hk⟩ := pagina_unica EntradaTabla.presente hinv.pids hinv.entradas.duenosMarcos.1 he he'
    hpres hpres' (hmarco.trans hmarco'.symm)
  omega

/-- Page numbers, by truncated division: an address of a translated page is accepted, or is
less than a page below 0. -/
theorem acepta_de_traducida (h : Traducida p (obtenerPagina cfg dl) marco)
    (hdl : 0 ≤ dl ∨ dl ≤ -cfg.tamPagina) : Acepta p dl := by
  obtain ⟨dl', hac', hpag, -⟩ := h
  have hpos := tamPagina_int_pos cfg
  have hcero : 0 ≤ obtenerPagina cfg dl' := Int.tdiv_nonneg hac'.2 hpos.le
  rcases hdl with hdl | hdl
  · refine ⟨?_, hdl⟩
    rw [obtenerPagina, obtenerPagina] at hpag
    rw [← hpag]
    exact hac'.1
  · have hpagina : obtenerPagina cfg dl ≤ -1 := by
      have hopuesto : dl = -(-dl) := (neg_neg _).symm
      rw [obtenerPagina, hopuesto, Int.neg_tdiv, Int.tdiv_eq_ediv_of_nonneg (by omega)]
      have huno : 1 ≤ -dl / cfg.tamPagina := by
        apply Int.le_ediv_of_mul_le hpos
        omega
      omega
    omega

end Traducciones

/-- The state of a burst of a process with the pages of `p` that stays in `U`. -/
structure RafagaSana (pid : ℤ) (p : Proceso cfg) (U : ℤ → Prop) (s : EstadoCpu cfg) : Prop where
  invariante : Invariante s.memoria
  proceso : ∃ q, buscarProceso s.memoria.diccionarioProcesos pid = some q ∧ MismasPaginas p q
  tlb : TodoTlb (Mapeo cfg pid (TraducidaEn p U)) s.tlb
  cache : CacheSana cfg pid (TraducidaEn p U) s.cache

section Tablas

variable {s : EstadoCpu cfg} {m m' : Memoria cfg} {c : Cache} {t : Tlb} {pagina marco dl : ℤ}

theorem Integra.de_invariante (h : Invariante m) : Integra m := ⟨h.pids, h.entradas.memoria⟩

/-- Memoria changed its answers in no way that the burst sees. -/
theorem proceso_mismas (h : procesos m' = procesos m) {q : Proceso cfg}
    (hq : buscarProceso m.diccionarioProcesos pid = some q) (hpq : MismasPaginas p q) :
    ∃ q', buscarProceso m'.diccionarioProcesos pid = some q' ∧ MismasPaginas p q' := by
  obtain ⟨q', hq', hqq⟩ := proceso_procesos h hq
  exact ⟨q', hq', hqq.tabla.trans hpq.tabla, hqq.tam.trans hpq.tam⟩

theorem rafagaSana_limpia {q : Proceso cfg} (hm : Invariante s.memoria) (hs : MmuLimpia s)
    (hq : buscarProceso s.memoria.diccionarioProcesos pid = some q) (hpq : MismasPaginas p q) :
    RafagaSana pid p U s where
  invariante := hm
  proceso := ⟨q, hq, hpq⟩
  tlb := by
    intro i pid' pagina marco hmapea
    exact absurd hmapea (hs.tlb i pid' pagina marco)
  cache :=
    { entradas := by
        intro e he hoc
        rw [hs.cache e he] at hoc
        cases hoc
      puntero := hs.puntero }

theorem RafagaSana.con (h : RafagaSana pid p U s) {r : ℕ → List Byte}
    (hcon : ConMarcos s.memoria m' r) (ht : TodoTlb (Mapeo cfg pid (TraducidaEn p U)) t)
    (hc : CacheSana cfg pid (TraducidaEn p U) c) : RafagaSana pid p U ⟨t, c, m'⟩ where
  invariante := invariante_con h.invariante hcon
  proceso := by
    obtain ⟨q, hq, hpq⟩ := h.proceso
    exact proceso_mismas hcon.procesos hq hpq
  tlb := ht
  cache := hc

theorem RafagaSana.quieta (h : RafagaSana pid p U s) (hm : Quieta s.memoria m') :
    RafagaSana pid p U { s with memoria := m' } :=
  h.con (hm.conMarcos (Integra.de_invariante h.invariante).largo) h.tlb h.cache

/-- The entry that hit, changed through the pointer. -/
theorem sana_conEntrada {i : ℕ} {e : EntradaCache} (h : RafagaSana pid p U s)
    (he : EntradaSana cfg pid (TraducidaEn p U) e) : RafagaSana pid p U (conEntrada s i e) where
  invariante := h.invariante
  proceso := h.proceso
  tlb := h.tlb
  cache := cacheSana_set h.cache he

/-- A page is brought whole. -/
theorem lectura_sana (cpu : Cpu) (hm : Integra m)
    (hmapeo : Mapeo cfg pid (TraducidaEn p U) pid pagina marco) :
    ∃ m', leerBytesDeMemoriaPrincipal cpu m marco 0 cfg.tamPagina pid =
      some (some (vista m marco.toNat), m') ∧ (vista m marco.toNat).length = cfg.tamPagina ∧
        Quieta m m' := by
  obtain ⟨-, -, hmarco, hmax⟩ := hmapeo
  obtain ⟨f, rfl⟩ := Int.eq_ofNat_of_zero_le hmarco
  have hf : f < cfg.cantidadMarcos := Int.ofNat_lt.mp hmax
  obtain ⟨m', hlee, hquieta⟩ := leerBytes_marco cpu pid hm.pids hm.largo hf
  exact ⟨m', hlee, length_marcosDe hm.largo hf, hquieta⟩

/-- The frame of a translation, as the CPU receives it. -/
theorem mapeo_traducido (h : RafagaSana pid p U s) (hU : U (obtenerPagina cfg dl))
    (ht : TraduceA s.memoria pid dl marco) :
    Mapeo cfg pid (TraducidaEn p U) pid (obtenerPagina cfg dl) marco ∧
      traducir p dl = some (.traduccionOk marco) := by
  obtain ⟨q, hq, hpq⟩ := h.proceso
  obtain ⟨f, hf, rfl⟩ := (traduceA_iff hq).mp ht
  obtain ⟨e, he, hpres, rfl⟩ := asignado_de_traducir hf
  have hmem : e ∈ todasEntradas s.memoria.diccionarioProcesos :=
    List.mem_flatMap.mpr ⟨q, (buscarProceso_some hq).1, he⟩
  have hrango := marco_rango h.invariante.entradas hmem hpres
  have hdentro := cfg.marco_dentro (m := e.numeroMarco.toNat) (by omega)
  have htam := cfg.tamMemoria_int
  have hpos := cfg.tamPagina_pos
  have hmenor : e.numeroMarco.toNat * 1 ≤ e.numeroMarco.toNat * cfg.tamPagina :=
    Nat.mul_le_mul_left _ hpos
  rw [aInt_eq ⟨by omega, by omega⟩]
  rw [traducir_mismas hpq] at hf
  exact ⟨⟨rfl, ⟨⟨dl, traducir_acepta hf, rfl, hf⟩, hU⟩, hrango⟩, hf⟩

/-- What Memoria answers in a burst: it is undefined, it gives the frame, or it refuses. -/
theorem traduccion_casos (cpu : Cpu) (dl : ℤ) (h : RafagaSana pid p U s)
    (hU : Acepta p dl → U (obtenerPagina cfg dl)) :
    (traducir p dl = none ∧ pedirTraduccionAMemoria cpu s.memoria pid dl = none) ∨
    (∃ marco m', traducir p dl = some (.traduccionOk marco) ∧ TraduceA s.memoria pid dl marco ∧
      pedirTraduccionAMemoria cpu s.memoria pid dl = some (marco, m') ∧ marco ≠ -1 ∧
      Mapeo cfg pid (TraducidaEn p U) pid (obtenerPagina cfg dl) marco ∧ Quieta s.memoria m') ∨
    (∃ r m', traducir p dl = some r ∧ (∀ f, r ≠ .traduccionOk f) ∧
      pedirTraduccionAMemoria cpu s.memoria pid dl = some (-1, m') ∧ Quieta s.memoria m') := by
  have hint := Integra.de_invariante h.invariante
  obtain ⟨q, hq, hpq⟩ := h.proceso
  rcases pedirTraduccion_casos cpu dl hint.pids hq with
    ⟨htrad, hped⟩ | ⟨f, htrad⟩ | ⟨r, m', htrad, hr, hped, hquieta⟩ <;>
    rw [traducir_mismas hpq] at htrad
  · exact Or.inl ⟨htrad, hped⟩
  · have hta : TraduceA s.memoria pid dl (aInt f) :=
      (traduceA_iff hq).mpr ⟨f, (traducir_mismas hpq dl).trans htrad, rfl⟩
    obtain ⟨hmapeo, htrad'⟩ := mapeo_traducido h (hU (traducir_acepta htrad)) hta
    obtain ⟨m', hped, hquieta⟩ := pedirTraduccion_ok cpu hint.pids hta
    have hmarco : aInt f ≠ -1 := by
      intro hmenos
      have hrango := hmapeo.2.2.1
      rw [hmenos] at hrango
      exact absurd hrango (by decide)
    exact Or.inr (Or.inl ⟨_, m', htrad', hta, hped, hmarco, hmapeo, hquieta⟩)
  · exact Or.inr (Or.inr ⟨r, m', htrad, hr, hped, hquieta⟩)

/-- The lookup of READ and of WRITE without a cache, in a burst. -/
theorem marco_casos (cpu : Cpu) {alAcertar : Tlb → ℕ → Tlb} (hal : SoloMarca alAcertar)
    (h : RafagaSana pid p U s) (hU : Acepta p dl → U (obtenerPagina cfg dl)) :
    (∃ marco s₁, obtenerMarco cpu s pid dl alAcertar = some (some marco, s₁) ∧
      ((indiceTlb s.tlb.entradas pid (obtenerPagina cfg dl)).isSome ∨
        traducir p dl = some (.traduccionOk marco)) ∧
      Mapeo cfg pid (TraducidaEn p U) pid (obtenerPagina cfg dl) marco ∧ s₁.cache = s.cache ∧
      Quieta s.memoria s₁.memoria ∧ TodoTlb (Mapeo cfg pid (TraducidaEn p U)) s₁.tlb) ∨
    (indiceTlb s.tlb.entradas pid (obtenerPagina cfg dl) = none ∧
      ((∃ r m', traducir p dl = some r ∧ (∀ f, r ≠ .traduccionOk f) ∧
        obtenerMarco cpu s pid dl alAcertar = some (none, { s with memoria := m' }) ∧
        Quieta s.memoria m') ∨
      (traducir p dl = none ∧ obtenerMarco cpu s pid dl alAcertar = none))) := by
  have hint := Integra.de_invariante h.invariante
  cases hi : indiceTlb s.tlb.entradas pid (obtenerPagina cfg dl) with
  | some i =>
    obtain ⟨marco, t, hobt, hmapea, htodo⟩ := obtenerMarco_acierto cpu hal hi
    exact Or.inl ⟨marco, _, hobt, Or.inl rfl, h.tlb i _ _ _ hmapea, rfl, ⟨rfl, rfl⟩, htodo _ h.tlb⟩
  | none =>
    have hfalla := obtenerMarco_falla cpu alAcertar hi
    rcases traduccion_casos cpu _ h hU with
      ⟨htrad, hped⟩ | ⟨marco, m', htrad, -, hped, hmarco, hmapeo, hquieta⟩ |
        ⟨r, m', htrad, hr, hped, hquieta⟩
    · rw [hped, Option.map_none] at hfalla
      exact Or.inr ⟨rfl, Or.inr ⟨htrad, hfalla⟩⟩
    · rw [hped, Option.map_some, if_neg hmarco] at hfalla
      exact Or.inl ⟨marco, _, hfalla, Or.inr htrad, hmapeo, rfl, hquieta,
        todoTlb_agregar h.tlb hmapeo⟩
    · rw [hped, Option.map_some, if_pos rfl] at hfalla
      exact Or.inr ⟨rfl, Or.inl ⟨r, m', htrad, hr, hfalla, hquieta⟩⟩

end Tablas

end CpuRafagas
