import Tpssoo.MemoriaMarcos
import Mathlib.Data.Rat.Floor

/-!
# Admission

What `INIT_PROCESO_OK` promises about the new process, and when it is kept. The only
admission test compares pages with free frames, so the promise depends on what the page
table can address as well.
-/
namespace MemoriaAdmision

open EnterosC Protocolo ArbolRadix MapaDeBits MemoriaEstado MemoriaSwap MemoriaPaginacion
  MemoriaTraduccion MemoriaPeticiones MemoriaFilas MemoriaEfectos MemoriaInvariante

variable {cfg : Config} {m m' : Memoria cfg} {p : Proceso cfg}

section Traduccion

/-- The CPU gets a frame from the reply to a translation request. -/
def TraduceA (m : Memoria cfg) (pid direccionLogica marco : ℤ) : Prop :=
  ∃ paquete m', manejarTraduccionTabla m pid direccionLogica = some ([.paquete paquete], m') ∧
    paquete.codigoOperacion = OpCode.traduccionOk.codigo ∧ leerInt paquete.buffer 8 = some marco

theorem leerInt_paqueteTraduccion (op : OpCode) (pid dl marco : ℤ) :
    leerInt (paqueteTraduccion op pid dl marco).buffer 8 = some (aInt marco) := by
  have h := leerInt_bytesInt (bytesInt pid ++ bytesInt dl) [] marco
  simpa [paqueteTraduccion, agregarAPaquete, crearPaquete] using h

theorem traduceA_iff {pid dl marco : ℤ} (h : buscarProceso m.diccionarioProcesos pid = some p) :
    TraduceA m pid dl marco ↔ ∃ f, traducir p dl = some (.traduccionOk f) ∧ marco = aInt f := by
  have hman : manejarTraduccionTabla m pid dl =
      (traducir p dl).map (responderTraduccion m p pid dl) := by
    unfold manejarTraduccionTabla
    rw [h]
  constructor
  · rintro ⟨paquete, m', hat, hcod, hl⟩
    rw [hman, Option.map_eq_some_iff] at hat
    obtain ⟨r, hr, heq⟩ := hat
    cases r with
    | paginaFueraDeRango =>
      cases heq
      exact absurd hcod (by decide)
    | errorTraduccion =>
      cases heq
      exact absurd hcod (by decide)
    | marcoNoPresente =>
      cases heq
      simp only [paqueteTraduccion, agregarAPaquete, crearPaquete] at hcod
      exact absurd hcod (by decide)
    | traduccionOk f =>
      cases heq
      rw [leerInt_paqueteTraduccion] at hl
      exact ⟨f, hr, (Option.some.inj hl).symm⟩
  · rintro ⟨f, hf, rfl⟩
    refine ⟨_, _, by rw [hman, hf]; rfl, rfl, leerInt_paqueteTraduccion _ _ _ _⟩

/-- While the shifts are defined, translating an accepted address whose page is in the
table reads the entry of that page. -/
theorem traducir_presente {e : EntradaTabla} {dl : ℤ} (hforma : p.BienFormado)
    (hbits : cfg.nivelesInferiores * cfg.bitsPorNivel < 32) (hacepta : Acepta p dl)
    (hpag : (dl.tdiv cfg.tamPagina).toNat < cfg.paginasDireccionables)
    (he : p.entradas[(dl.tdiv cfg.tamPagina).toNat]? = some e) (hpres : e.presente = true) :
    traducir p dl = some (.traduccionOk e.numeroMarco) := by
  have hn : cfg.nivelesInferiores < cfg.cantidadNiveles := by
    have := cfg.niveles_eq
    omega
  unfold traducir
  rw [if_pos hacepta, recorrerNiveles_eq hn hbits]
  unfold Proceso.entradas at he
  cases ht : p.tablaNivel1 with
  | none => simp [ht] at he
  | some t =>
    rw [ht] at he
    unfold Config.paginasDireccionables at hpag
    rw [← cfg.niveles_eq] at hpag
    have hlee := getD_buscar entradaVacia (digito cfg (dl.tdiv cfg.tamPagina).toNat)
      (hforma t ht) hpag fun k _ => rfl
    simp only at he
    rw [he] at hlee
    simp only [Option.bind_some, Option.map_some]
    cases hb : buscar (digito cfg (dl.tdiv cfg.tamPagina).toNat) cfg.nivelesInferiores t with
    | none =>
      rw [hb] at hlee
      cases hlee
      cases hpres
    | some e' =>
      rw [hb] at hlee
      cases hlee
      change e'.presente = true at hpres
      simp [resultadoDeEntrada, hpres]

theorem traducir_indefinido {dl : ℤ} (hbits : 32 ≤ cfg.nivelesInferiores * cfg.bitsPorNivel)
    (hacepta : Acepta p dl) : traducir p dl = none := by
  have hn : cfg.nivelesInferiores < cfg.cantidadNiveles := by
    have := cfg.niveles_eq
    omega
  unfold traducir
  rw [if_pos hacepta, recorrerNiveles_indefinido hn hbits]
  rfl

end Traduccion

section Paginas

variable {tam : ℤ}

theorem paginasRequeridas_eq_ceil (cfg : Config) (tam : ℤ) :
    paginasRequeridas cfg tam = ⌈(tam : ℚ) / cfg.tamPagina⌉ := by
  unfold paginasRequeridas
  split
  · rename_i h
    simp [h]
  · exact (Rat.ceil_intCast_div_natCast tam cfg.tamPagina).symm

theorem tamPagina_int_pos (cfg : Config) : (0 : ℤ) < cfg.tamPagina := by
  have := cfg.tamPagina_pos
  omega

theorem paginas_pos_iff (cfg : Config) : 0 < paginasRequeridas cfg tam ↔ 0 < tam := by
  unfold paginasRequeridas
  have hpos := tamPagina_int_pos cfg
  split
  · omega
  · rw [neg_pos, Int.ediv_lt_iff_lt_mul hpos, zero_mul]
    omega

/-- The size fits in the pages it requires, and no smaller number of them. -/
theorem paginas_cota (cfg : Config) (h : 0 < tam) :
    tam ≤ paginasRequeridas cfg tam * cfg.tamPagina ∧
      (paginasRequeridas cfg tam - 1) * cfg.tamPagina < tam := by
  have hpos := tamPagina_int_pos cfg
  unfold paginasRequeridas
  rw [if_neg (by omega)]
  have h₁ := Int.mul_ediv_add_emod (-tam) cfg.tamPagina
  have h₂ := Int.emod_nonneg (-tam) hpos.ne'
  have h₃ := Int.emod_lt_of_pos (-tam) hpos
  constructor <;> nlinarith

theorem pagina_lt_iff (cfg : Config) {a : ℤ} (k : ℤ) (ha : 0 ≤ a) :
    a.tdiv cfg.tamPagina < k ↔ a < k * cfg.tamPagina := by
  rw [Int.tdiv_eq_ediv_of_nonneg ha]
  exact Int.ediv_lt_iff_lt_mul (tamPagina_int_pos cfg)

/-- The page total of the range check counts the required pages of an admitted size: the
sum in it does not overflow. -/
theorem totalPaginas_eq (hT : 0 < p.tamProceso)
    (hcabe : paginasRequeridas cfg p.tamProceso ≤ cfg.cantidadMarcos) :
    totalPaginas p = paginasRequeridas cfg p.tamProceso := by
  obtain ⟨hle, hlt⟩ := paginas_cota cfg hT
  have hpos := tamPagina_int_pos cfg
  have hmem : (cfg.cantidadMarcos : ℤ) * cfg.tamPagina = cfg.tamMemoria := by
    exact_mod_cast cfg.marcos_mul
  have hmem_int : (cfg.tamMemoria : ℤ) + cfg.tamPagina ≤ 2 ^ 31 := by
    -- both are below 2 ^ 31, and the page divides it
    have hdiv : cfg.tamPagina ∣ 2 ^ 31 := cfg.pagina_divide
    have hdivm : cfg.tamPagina ∣ cfg.tamMemoria := Nat.dvd_of_mod_eq_zero cfg.memoria_multiplo
    have hdif : cfg.tamPagina ∣ 2 ^ 31 - cfg.tamMemoria := Nat.dvd_sub hdiv hdivm
    have := Nat.le_of_dvd (by have := cfg.tamMemoria_int; omega) hdif
    have := cfg.tamMemoria_int
    omega
  have hT_le : p.tamProceso ≤ cfg.tamMemoria := by
    calc p.tamProceso ≤ paginasRequeridas cfg p.tamProceso * cfg.tamPagina := hle
      _ ≤ cfg.cantidadMarcos * cfg.tamPagina := by nlinarith
      _ = cfg.tamMemoria := hmem
  have hsuma : 0 ≤ p.tamProceso + cfg.tamPagina - 1 := by omega
  unfold totalPaginas
  rw [aInt_eq ⟨by omega, by omega⟩, Int.tdiv_eq_ediv_of_nonneg hsuma]
  rw [Int.ediv_eq_iff_of_pos hpos]
  constructor <;> linarith

end Paginas

/-- What `INIT_PROCESO_OK` says of the new process. -/
structure PromesaCumplida (m : Memoria cfg) (pid tam : ℤ) : Prop where
  paginas : ∃ p, buscarProceso m.diccionarioProcesos pid = some p ∧
    (contarPaginasPresentes p.tablaNivel1 : ℤ) = ⌈(tam : ℚ) / cfg.tamPagina⌉ ∧
    p.paginasAsignadas = ⌈(tam : ℚ) / cfg.tamPagina⌉
  traduce : ∀ dl, 0 ≤ dl → dl < tam → ∃ marco, TraduceA m pid dl marco
  mismoMarco : ∀ dl dl' marco marco', 0 ≤ dl → dl < tam → 0 ≤ dl' → dl' < tam →
    TraduceA m pid dl marco → TraduceA m pid dl' marco' →
    (marco = marco' ↔ dl / cfg.tamPagina = dl' / cfg.tamPagina)

/-- The size is not so negative that it requires a negative number of pages, its pages fit
in the page table, and the shifts that translate them are defined. -/
def TamanioAdmisible (cfg : Config) (tam : ℤ) : Prop :=
  0 ≤ ⌈(tam : ℚ) / cfg.tamPagina⌉ ∧ ⌈(tam : ℚ) / cfg.tamPagina⌉ ≤ cfg.paginasDireccionables ∧
    (⌈(tam : ℚ) / cfg.tamPagina⌉ = 0 ∨ cfg.nivelesInferiores * cfg.bitsPorNivel < 32)

section Promesa

variable (env : Entorno) {pid tam : ℤ} (largo : ℤ) (path : List Byte)

/-- The process an accepted request leaves in the dictionary. -/
theorem proceso_admitido
    (hat : atenderPostHandshake env m (.initProc pid tam largo path) =
      some (responder OpCode.initProcesoOk.codigo, m')) :
    ∃ inst, paginasRequeridas cfg tam ≤ m.almacen.bitmapMarcos.count false ∧
      buscarProceso m'.diccionarioProcesos pid =
        some (crearProceso cfg m.almacen.bitmapMarcos pid tam inst).1 := by
  simp only [atenderPostHandshake] at hat
  split at hat
  · cases hat
  · rcases almacenar_cases hat with ⟨-, he | he⟩ | ⟨inst, -, hcabe, rfl⟩
    · exact absurd he (by decide)
    · exact absurd he (by decide)
    · refine ⟨inst, hcabe, ?_⟩
      have hpid : (crearProceso cfg m.almacen.bitmapMarcos pid tam inst).1.pid = pid := by
        unfold crearProceso
        dsimp only
        split <;> rfl
      simp [buscarProceso, guardarProceso, hpid]

theorem crearProceso_campos (cfg : Config) (bits : List Bool) (pid tam : ℤ)
    (inst : List Instruccion) :
    (crearProceso cfg bits pid tam inst).1.tamProceso = tam ∧
      (crearProceso cfg bits pid tam inst).1.paginasAsignadas =
        max 0 (paginasRequeridas cfg tam) := by
  unfold crearProceso
  dsimp only
  split <;> refine ⟨rfl, ?_⟩ <;> dsimp only <;> omega

theorem presentes_crearProceso {bits : List Bool} {inst : List Instruccion}
    (hcabe : paginasRequeridas cfg tam ≤ bits.count false) :
    contarPaginasPresentes (crearProceso cfg bits pid tam inst).1.tablaNivel1 =
      paginasDadas cfg tam := by
  obtain ⟨-, vacias, hfila⟩ := crearProceso_eq pid inst hcabe
  rw [contarPaginasPresentes_eq, hfila, List.countP_append, List.countP_map]
  have hen : (EntradaTabla.presente ∘ entradaEn) = fun _ => true := rfl
  rw [hen, List.countP_true, length_tomarMarcos, List.countP_replicate]
  simp

/-- The address range of an admitted size is the range of its pages. -/
theorem acepta_direccion {dl : ℤ} (hT : p.tamProceso = tam) (h₀ : 0 ≤ dl) (h₁ : dl < tam)
    (hcabe : paginasRequeridas cfg tam ≤ cfg.cantidadMarcos) :
    Acepta p dl ∧ (dl.tdiv cfg.tamPagina).toNat < (paginasRequeridas cfg tam).toNat := by
  have htam : 0 < p.tamProceso := by omega
  have htotal := totalPaginas_eq htam (hT ▸ hcabe)
  have hlt : dl.tdiv cfg.tamPagina < paginasRequeridas cfg tam :=
    (pagina_lt_iff cfg _ h₀).mpr (lt_of_lt_of_le h₁ (paginas_cota cfg (hT ▸ htam)).1)
  have hnn : 0 ≤ dl.tdiv cfg.tamPagina := Int.tdiv_nonneg h₀ (tamPagina_int_pos cfg).le
  exact ⟨⟨htotal ▸ hT ▸ hlt, h₀⟩, by omega⟩

theorem count_le_marcos (h : Invariante m) :
    m.almacen.bitmapMarcos.count false ≤ cfg.cantidadMarcos :=
  h.entradas.bitmap ▸ List.count_le_length

/-- The frame of an address of an admitted process is the one of its page. -/
theorem traduceA_admitido (hinv : Invariante m) {inst : List Instruccion}
    (hcabe : paginasRequeridas cfg tam ≤ m.almacen.bitmapMarcos.count false)
    (hbusca : buscarProceso m'.diccionarioProcesos pid =
      some (crearProceso cfg m.almacen.bitmapMarcos pid tam inst).1)
    (hpag : paginasRequeridas cfg tam ≤ cfg.paginasDireccionables)
    (hbits : cfg.nivelesInferiores * cfg.bitsPorNivel < 32) {dl : ℤ} (h₀ : 0 ≤ dl) (h₁ : dl < tam)
    {marco : ℤ} :
    TraduceA m' pid dl marco ↔
      (tomarMarcos (paginasDadas cfg tam) m.almacen.bitmapMarcos).1[(dl / cfg.tamPagina).toNat]? =
        some marco := by
  have hmarcos : paginasRequeridas cfg tam ≤ cfg.cantidadMarcos := by
    have := count_le_marcos hinv
    omega
  obtain ⟨hT, -⟩ := crearProceso_campos cfg m.almacen.bitmapMarcos pid tam inst
  obtain ⟨hacepta, hlt⟩ := acepta_direccion hT h₀ h₁ hmarcos
  obtain ⟨-, vacias, hfila⟩ := crearProceso_eq pid inst hcabe
  have hdiv : dl.tdiv cfg.tamPagina = dl / cfg.tamPagina := Int.tdiv_eq_ediv_of_nonneg h₀
  have hdadas : paginasDadas cfg tam = (paginasRequeridas cfg tam).toNat := by
    unfold paginasDadas
    omega
  have hlen : (tomarMarcos (paginasDadas cfg tam) m.almacen.bitmapMarcos).1.length =
      paginasDadas cfg tam := length_tomarMarcos
  have hidx : (dl / (cfg.tamPagina : ℤ)).toNat <
      (tomarMarcos (paginasDadas cfg tam) m.almacen.bitmapMarcos).1.length := by
    rw [hlen, hdadas, ← hdiv]
    exact hlt
  have hget := List.getElem?_eq_getElem hidx
  have hentrada : (crearProceso cfg m.almacen.bitmapMarcos pid tam inst).1.entradas[
      (dl.tdiv cfg.tamPagina).toNat]? = some (entradaEn
        ((tomarMarcos (paginasDadas cfg tam) m.almacen.bitmapMarcos).1[(dl /
          (cfg.tamPagina : ℤ)).toNat])) := by
    rw [hfila, hdiv, List.getElem?_append_left (by simpa using hidx), List.getElem?_map, hget]
    rfl
  have htrad := traducir_presente (bienFormado_crearProceso _ _ _ _) hbits hacepta (by omega)
    hentrada rfl
  -- the frame is a real one, so the reply carries it unchanged
  have hrango : EsInt ((tomarMarcos (paginasDadas cfg tam)
      m.almacen.bitmapMarcos).1[(dl / (cfg.tamPagina : ℤ)).toNat]) := by
    have hprop := propiedad_tomarMarcos (k := paginasDadas cfg tam) hinv.entradas.duenosMarcos
      (by omega)
    have hocu := (hprop.2 _).mp (Multiset.mem_add.mpr (.inl (Multiset.mem_coe.mpr
      (List.getElem_mem hidx))))
    obtain ⟨hr₀, hr₁⟩ := ocupado_rango hocu
    rw [length_bitmap_tomarMarcos, hinv.entradas.bitmap] at hr₁
    have hle : cfg.cantidadMarcos ≤ cfg.tamMemoria := Nat.div_le_self _ _
    have := cfg.tamMemoria_int
    exact ⟨by omega, by omega⟩
  rw [traduceA_iff hbusca, htrad, hget]
  simp only [Option.some.injEq, ResultadoTraduccion.traduccionOk.injEq, entradaEn]
  constructor
  · rintro ⟨f, rfl, rfl⟩
    exact (aInt_eq hrango).symm
  · rintro rfl
    exact ⟨_, rfl, (aInt_eq hrango).symm⟩

theorem promesa_suficiente (hinv : Invariante m)
    (hat : atenderPostHandshake env m (.initProc pid tam largo path) =
      some (responder OpCode.initProcesoOk.codigo, m')) (hadm : TamanioAdmisible cfg tam) :
    PromesaCumplida m' pid tam := by
  obtain ⟨inst, hcabe, hbusca⟩ := proceso_admitido env largo path hat
  obtain ⟨hpos, hpag, hbits⟩ := hadm
  rw [← paginasRequeridas_eq_ceil] at hpos hpag hbits
  have hbits' : 0 < tam → cfg.nivelesInferiores * cfg.bitsPorNivel < 32 := by
    intro ht
    have := (paginas_pos_iff cfg).mpr ht
    omega
  have htraduce : ∀ dl, 0 ≤ dl → dl < tam → ∀ marco, TraduceA m' pid dl marco ↔ _ :=
    fun dl h₀ h₁ marco => traduceA_admitido hinv hcabe hbusca hpag (hbits' (by omega)) h₀ h₁
  have hdadas : (paginasDadas cfg tam : ℤ) = paginasRequeridas cfg tam := by
    unfold paginasDadas
    omega
  have hlen : (tomarMarcos (paginasDadas cfg tam) m.almacen.bitmapMarcos).1.length =
      paginasDadas cfg tam := length_tomarMarcos
  have hidx : ∀ dl, 0 ≤ dl → dl < tam → (dl / (cfg.tamPagina : ℤ)).toNat <
      (tomarMarcos (paginasDadas cfg tam) m.almacen.bitmapMarcos).1.length := by
    intro dl h₀ h₁
    have hlt := (pagina_lt_iff cfg (paginasRequeridas cfg tam) h₀).mpr
      (lt_of_lt_of_le h₁ (paginas_cota cfg (by omega)).1)
    rw [Int.tdiv_eq_ediv_of_nonneg h₀] at hlt
    have := Int.ediv_nonneg h₀ (tamPagina_int_pos cfg).le
    omega
  refine ⟨⟨_, hbusca, ?_, ?_⟩, ?_, ?_⟩
  · rw [presentes_crearProceso hcabe, hdadas, paginasRequeridas_eq_ceil]
  · rw [(crearProceso_campos _ _ _ _ _).2, ← paginasRequeridas_eq_ceil]
    omega
  · intro dl h₀ h₁
    exact ⟨_, (htraduce dl h₀ h₁ _).mpr (List.getElem?_eq_getElem (hidx dl h₀ h₁))⟩
  · intro dl dl' marco marco' h₀ h₁ h₀' h₁' ht ht'
    rw [htraduce dl h₀ h₁] at ht
    rw [htraduce dl' h₀' h₁'] at ht'
    have hprop := propiedad_tomarMarcos (k := paginasDadas cfg tam) hinv.entradas.duenosMarcos
      (by omega)
    have hn : (tomarMarcos (paginasDadas cfg tam) m.almacen.bitmapMarcos).1.Nodup :=
      Multiset.coe_nodup.mp (Multiset.nodup_add.mp hprop.1).1
    constructor
    · rintro rfl
      obtain ⟨hl, he⟩ := List.getElem?_eq_some_iff.mp ht
      obtain ⟨hl', he'⟩ := List.getElem?_eq_some_iff.mp ht'
      have := (List.Nodup.getElem_inj_iff hn).mp (he.trans he'.symm)
      have hn₀ := Int.ediv_nonneg h₀ (tamPagina_int_pos cfg).le
      have hn₁ := Int.ediv_nonneg h₀' (tamPagina_int_pos cfg).le
      omega
    · intro heq
      rw [heq, ht'] at ht
      exact (Option.some.inj ht).symm

theorem promesa_necesaria (hinv : Invariante m)
    (hat : atenderPostHandshake env m (.initProc pid tam largo path) =
      some (responder OpCode.initProcesoOk.codigo, m')) (hprom : PromesaCumplida m' pid tam) :
    TamanioAdmisible cfg tam := by
  obtain ⟨inst, hcabe, hbusca⟩ := proceso_admitido env largo path hat
  obtain ⟨p, hp, hpresentes, -⟩ := hprom.paginas
  have hpp : p = (crearProceso cfg m.almacen.bitmapMarcos pid tam inst).1 :=
    Option.some.inj (hp.symm.trans hbusca)
  rw [hpp, presentes_crearProceso hcabe, ← paginasRequeridas_eq_ceil] at hpresentes
  unfold TamanioAdmisible
  rw [← paginasRequeridas_eq_ceil]
  have hdadas : paginasDadas cfg tam ≤ cfg.paginasDireccionables := Nat.min_le_right _ _
  refine ⟨by omega, by omega, ?_⟩
  by_contra hc
  rw [not_or] at hc
  obtain ⟨hne, hbits⟩ := hc
  -- address zero is in range, and translating it shifts by 32 bits or more
  have htam : 0 < tam := (paginas_pos_iff cfg).mp (by omega)
  obtain ⟨marco, ht⟩ := hprom.traduce 0 le_rfl htam
  obtain ⟨f, hf, -⟩ := (traduceA_iff hbusca).mp ht
  have hmarcos : paginasRequeridas cfg tam ≤ cfg.cantidadMarcos := by
    have := count_le_marcos hinv
    omega
  obtain ⟨hT, -⟩ := crearProceso_campos cfg m.almacen.bitmapMarcos pid tam inst
  obtain ⟨hacepta, -⟩ := acepta_direccion hT le_rfl htam hmarcos
  rw [traducir_indefinido (by omega) hacepta] at hf
  cases hf

/-- An accepted request keeps its promise exactly when its size is one that the page table
can hold. -/
theorem admision_cumple_iff (hm : Alcanzable m)
    (hat : atenderPostHandshake env m (.initProc pid tam largo path) =
      some (responder OpCode.initProcesoOk.codigo, m')) :
    PromesaCumplida m' pid tam ↔ TamanioAdmisible cfg tam :=
  ⟨promesa_necesaria env largo path (invariante_de_alcanzable hm) hat,
    promesa_suficiente env largo path (invariante_de_alcanzable hm) hat⟩

theorem admision_cumple_ejemplo :
    ∃ m' : Memoria configEjemplo,
      atenderPostHandshake entornoEjemplo (inicial configEjemplo) (.initProc 1 6 0 []) =
        some (responder OpCode.initProcesoOk.codigo, m') ∧
      (PromesaCumplida m' 1 6 ↔ TamanioAdmisible configEjemplo 6) :=
  ⟨_, rfl, admision_cumple_iff entornoEjemplo 0 [] .inicial rfl⟩

/-- Sixteen addressable pages and 64 frames. -/
def configAngosta : Config := crearConfig [] 4096 64 2 4 (by decide)

/-- A process of 17 pages is admitted and gets 16. -/
theorem admision_sin_cumplir :
    ∃ m' : Memoria configAngosta,
      atenderPostHandshake entornoEjemplo (inicial configAngosta) (.initProc 1 1088 0 []) =
        some (responder OpCode.initProcesoOk.codigo, m') ∧ ¬ PromesaCumplida m' 1 1088 := by
  refine ⟨_, rfl, fun h => ?_⟩
  obtain ⟨-, hpag, -⟩ := promesa_necesaria entornoEjemplo 0 [] invariante_inicial rfl h
  rw [← paginasRequeridas_eq_ceil] at hpag
  revert hpag
  decide

end Promesa

end MemoriaAdmision
