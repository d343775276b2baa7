import Tpssoo.CpuRafagas

/-!
# Memory protection

What the tables of a burst hold was translated by Memoria, so write-backs stay in the
frames of the process. What is left is the range test of an access, which a hit skips.
-/
namespace CpuProteccion

open EnterosC Protocolo RangosBytes CacheDiferida MemoriaEstado MemoriaTraduccion MemoriaPeticiones
  MemoriaEfectos MemoriaInvariante MemoriaAdmision CpuEstado CpuTlb CpuCache CpuAccesos CpuMemoria
    CpuCoherencia
  CpuRafagas

variable {cfg : Config} {cpu : Cpu} {pid : ℤ} {p : Proceso cfg}

/-- Every page: what a burst of any accesses stays in. -/
abbrev todas : ℤ → Prop := fun _ => True

/-- Every byte of user memory outside the frames of the process is as it was. -/
def FueraIgual (p : Proceso cfg) (m m' : Memoria cfg) : Prop :=
  ∀ i : ℕ, (∀ f : ℕ, MarcoAsignado p f → ¬ (f * cfg.tamPagina ≤ i ∧
    i < f * cfg.tamPagina + cfg.tamPagina)) →
    m'.almacen.memoriaUsuario[i]? = m.almacen.memoriaUsuario[i]?

section Marcos

variable {m m' m'' : Memoria cfg} {dl marco : ℤ}

theorem FueraIgual.refl (p : Proceso cfg) (m : Memoria cfg) : FueraIgual p m m := by
  intro i _
  rfl

theorem FueraIgual.trans (h : FueraIgual p m m') (h' : FueraIgual p m' m'') :
    FueraIgual p m m'' := by
  intro i hi
  rw [h' i hi, h i hi]

theorem fueraIgual_quieta (h : Quieta m m') : FueraIgual p m m' := by
  intro i _
  rw [h.almacen]

/-- Frame by frame is enough. -/
theorem fueraIgual_con {r : ℕ → List Byte} (h : ConMarcos m m' r)
    (hr : ∀ f : ℕ, ¬ MarcoAsignado p f → r f = vista m f) : FueraIgual p m m' := by
  intro i hi
  have hresto : i % cfg.tamPagina < cfg.tamPagina := Nat.mod_lt _ cfg.tamPagina_pos
  have hmarco : ¬ MarcoAsignado p (i / cfg.tamPagina : ℕ) := by
    intro hasig
    have hdiv := Nat.div_add_mod' i cfg.tamPagina
    exact hi _ hasig ⟨by omega, by omega⟩
  have hvista : vista m' (i / cfg.tamPagina) = vista m (i / cfg.tamPagina) := by
    rw [h.marcos, hr _ hmarco]
  rw [← byte_de_marco cfg m'.almacen.memoriaUsuario,
    ← byte_de_marco cfg m.almacen.memoriaUsuario]
  exact congrArg (·[i % cfg.tamPagina]?) hvista

end Marcos

section Tablas

variable {s : EstadoCpu cfg} {m m' : Memoria cfg} {c : Cache} {pagina marco : ℤ}
  {contenido : List Byte}

/-- The key of a line is a frame of the process. -/
theorem asignado_de_linea (hc : CacheSana cfg pid (TraducidaEn p todas) c) {l : Linea ℕ (List Byte)}
    (hl : some l ∈ lineas c) : MarcoAsignado p l.clave := by
  obtain ⟨i, hi⟩ := List.mem_iff_getElem?.mp hl
  obtain ⟨e, he, hoc, rfl⟩ := linea_some hi
  obtain ⟨-, ⟨⟨dl, -, -, htrad⟩, -⟩, hmarco, -⟩ :=
      (hc.entradas e (List.mem_of_getElem? he) hoc).mapeo
  rw [Int.toNat_of_nonneg hmarco]
  exact asignado_de_traducir htrad

/-- Insertion, with any algorithm, writes back into the frames of the process. -/
theorem insertar_sana (cpu : Cpu) (hm : Integra m) (hc : CacheSana cfg pid (TraducidaEn p todas) c)
    (modificado : Bool)
    (hnueva : EntradaSana cfg pid (TraducidaEn p todas) ⟨true, pid, pagina, contenido, true,
      modificado, marco⟩) :
    ∃ c' m' r, insertarEnCache cpu c m pid pagina marco contenido modificado = some (c', m') ∧
      CacheSana cfg pid (TraducidaEn p todas) c' ∧ ConMarcos m m' r ∧
      ∀ f : ℕ, ¬ MarcoAsignado p f → r f = vista m f := by
  by_cases hvacia : c.entradas = []
  · refine ⟨c, m, vista m, if_pos hvacia, hc, ⟨rfl, rfl, hm.largo, rfl⟩, ?_⟩
    intro f _
    rfl
  · by_cases halg : cpu.algoritmoCache ≠ .otro ∨ ∃ e ∈ c.entradas, e.ocupado = false
    · obtain ⟨i, o, c', m', hins, ho, -, hsana, -, hcon⟩ := insertar_ok hm hc hvacia halg hnueva
      refine ⟨c', m', _, hins, hsana, hcon, ?_⟩
      intro f hf
      apply volcar_otra
      rintro l rfl rfl
      exact hf (asignado_de_linea hc (List.mem_of_getElem? ho))
    · push Not at halg
      obtain ⟨hotro, hllena⟩ := halg
      refine ⟨c, m, vista m, insertar_otro hotro ?_ _ _ _ _, hc, ⟨rfl, rfl, hm.largo, rfl⟩, ?_⟩
      · intro e he
        exact Bool.eq_true_of_not_eq_false (hllena e he)
      · intro f _
        rfl

/-- The cleaning at the end of the burst writes back into the frames of the process. -/
theorem limpieza_sana (cpu : Cpu) (h : RafagaSana pid p todas s) :
    ∃ cache m, limpiarCacheDeProceso cpu s.cache s.memoria pid = some (cache, m) ∧
      FueraIgual p s.memoria m := by
  obtain ⟨es, m, hlimpia, hcon, -, -⟩ :=
    limpiarEntradas_ok cpu (Integra.de_invariante h.invariante) h.cache.entradas
  refine ⟨{ s.cache with entradas := es }, m, ?_, fueraIgual_con hcon ?_⟩
  · rw [limpiarCacheDeProceso, hlimpia]
    rfl
  · intro f hf
    apply volcar_todas_otra
    rintro l hl rfl
    exact hf (asignado_de_linea h.cache hl)

/-- A page brought to the cache. -/
theorem insercion_sana (cpu : Cpu) (h : RafagaSana pid p todas s)
    (hm : Quieta s.memoria m) {t : Tlb}
    (ht : TodoTlb (Mapeo cfg pid (TraducidaEn p todas)) t)
    (hmapeo : Mapeo cfg pid (TraducidaEn p todas) pid pagina marco)
    (hlargo : contenido.length = cfg.tamPagina) (modificado : Bool) :
    ∃ c' m', insertarEnCache cpu s.cache m pid pagina marco contenido modificado = some (c', m') ∧
      RafagaSana pid p todas ⟨t, c', m'⟩ ∧ FueraIgual p s.memoria m' := by
  have hint := Integra.de_invariante h.invariante
  obtain ⟨c', m', r, hins, hsana, hcon, hr⟩ := insertar_sana cpu (hint.quieta hm) h.cache modificado
    ⟨hmapeo, hlargo⟩
  exact ⟨c', m', hins, h.con ((hm.conMarcos hint.largo).trans hcon) ht hsana,
    (fueraIgual_quieta hm).trans (fueraIgual_con hcon hr)⟩

end Tablas

/-- The lookup that an instruction makes before it asks Memoria finds the page. -/
def Acierta (s : EstadoCpu cfg) (pid : ℤ) : Acceso → Prop
  | .read dl _ =>
    (obtenerEntradaCache s.cache pid (obtenerPagina cfg dl)).isSome ∨
      (indiceTlb s.tlb.entradas pid (obtenerPagina cfg dl)).isSome
  | .write dl _ =>
    if s.cache.entradas ≠ [] then (obtenerEntradaCache s.cache pid (obtenerPagina cfg dl)).isSome
    else (indiceTlb s.tlb.entradas pid (obtenerPagina cfg dl)).isSome

/-- The page is found, in a table or by Memoria. -/
def Alcanza (p : Proceso cfg) (s : EstadoCpu cfg) (pid : ℤ) (acc : Acceso) : Prop :=
  Acierta s pid acc ∨ ∃ f, traducir p acc.direccionLogica = some (.traduccionOk f)

/-- How an access that passed the limit test can end. -/
inductive Desenlace (pid : ℤ) (p : Proceso cfg) (s : EstadoCpu cfg) (acc : Acceso) :
    Option (Resultado × EstadoCpu cfg) → Prop
  | accede {datos s'} (halcanza : Alcanza p s pid acc) (hsana : RafagaSana pid p todas s')
      (hdentro : 0 ≤ obtenerOffset cfg acc.direccionLogica →
        EnPagina cfg (obtenerOffset cfg acc.direccionLogica) acc.tamanio ∧
          FueraIgual p s.memoria s'.memoria) :
      Desenlace pid p s acc (some (.hecho datos, s'))
  | desborda (halcanza : Alcanza p s pid acc)
      (hfuera : ¬ EnPagina cfg (obtenerOffset cfg acc.direccionLogica) acc.tamanio) :
      Desenlace pid p s acc none
  | rechaza {r s'} (hfalla : ¬ Acierta s pid acc) (htrad : traducir p acc.direccionLogica = some r)
      (hr : ∀ f, r ≠ .traduccionOk f) (hsana : RafagaSana pid p todas s')
      (hfuera : FueraIgual p s.memoria s'.memoria) :
      Desenlace pid p s acc (some (.segmentationFault, s'))
  | indefinido (hfalla : ¬ Acierta s pid acc) (htrad : traducir p acc.direccionLogica = none) :
      Desenlace pid p s acc none

section Desenlaces

variable {s s₁ : EstadoCpu cfg} {dl tamanio marco : ℤ} {datos : List Byte}

theorem copiarDePagina_casos (pagina : List Byte) (offset tamanio : ℤ) :
    (EnPagina cfg offset tamanio ∧ ∃ datos, copiarDePagina cfg pagina offset tamanio = some datos) ∨
    (¬ EnPagina cfg offset tamanio ∧ copiarDePagina cfg pagina offset tamanio = none) := by
  by_cases hen : EnPagina cfg offset tamanio
  · exact Or.inl ⟨hen, _, if_pos hen⟩
  · exact Or.inr ⟨hen, if_neg hen⟩

theorem copiarAPagina_casos (pagina : List Byte) (offset tamanio : ℤ) (datos : List Byte) :
    (EnPagina cfg offset tamanio ∧
      ∃ contenido, copiarAPagina cfg pagina offset tamanio datos = some contenido) ∨
    (¬ EnPagina cfg offset tamanio ∧ copiarAPagina cfg pagina offset tamanio datos = none) := by
  by_cases hen : EnPagina cfg offset tamanio
  · exact Or.inl ⟨hen, _, if_pos hen⟩
  · exact Or.inr ⟨hen, if_neg hen⟩

theorem read_desenlace (cpu : Cpu) (h : RafagaSana pid p todas s)
    (hexc : ¬ ExcedeLimite cfg dl tamanio) :
    Desenlace pid p s (.read dl tamanio) (manejarInstruccionRead cpu s pid dl tamanio) := by
  have hint := Integra.de_invariante h.invariante
  cases hbusca : obtenerEntradaCache s.cache pid (obtenerPagina cfg dl) with
  | some i =>
    obtain ⟨e, he, hoc, -, -⟩ := obtenerEntrada_some hbusca
    have hsana := h.cache.entradas e (List.mem_of_getElem? he) hoc
    have halcanza : Alcanza p s pid (.read dl tamanio) := by
      left
      left
      rw [hbusca]
      rfl
    rw [read_acierto hexc hbusca he]
    rcases copiarDePagina_casos e.contenido (obtenerOffset cfg dl) tamanio with
      ⟨hen, datos, hcopia⟩ | ⟨hen, hcopia⟩ <;> rw [hcopia]
    · have hsana' : EntradaSana cfg pid (TraducidaEn p todas) { e with bitUso := true } :=
        ⟨hsana.mapeo, hsana.largo⟩
      exact Desenlace.accede halcanza (sana_conEntrada h hsana') fun _ => ⟨hen, FueraIgual.refl _ _⟩
    · exact Desenlace.desborda halcanza hen
  | none =>
    rcases marco_casos cpu soloMarca_nada h fun _ => trivial with
      ⟨marco, s₁, hobt, hhallada, hmapeo, hcache, hquieta, htlb⟩ | ⟨hi, hrechazo⟩
    · have halcanza : Alcanza p s pid (.read dl tamanio) := by
        rcases hhallada with hi | htrad
        · exact Or.inl (Or.inr hi)
        · exact Or.inr ⟨_, htrad⟩
      obtain ⟨m, hlee, hlargo, hquieta'⟩ := lectura_sana cpu (hint.quieta hquieta) hmapeo
      obtain ⟨c', m', hins, hsana, hfuera⟩ :=
        insercion_sana cpu h (hquieta.trans hquieta') htlb hmapeo hlargo false
      rw [← hcache] at hins
      rw [read_falla hexc hbusca hobt hlee hins]
      rcases copiarDePagina_casos (vista s₁.memoria marco.toNat) (obtenerOffset cfg dl) tamanio with
        ⟨hen, datos, hcopia⟩ | ⟨hen, hcopia⟩ <;> rw [hcopia]
      · exact Desenlace.accede halcanza hsana fun _ => ⟨hen, hfuera⟩
      · exact Desenlace.desborda halcanza hen
    · have hfalla : ¬ Acierta s pid (.read dl tamanio) := by
        rintro (h | h)
        · rw [hbusca] at h
          cases h
        · rw [hi] at h
          cases h
      rw [manejarInstruccionRead, if_neg hexc, hbusca]
      dsimp only
      rcases hrechazo with ⟨r, m', htrad, hr, hobt, hquieta⟩ | ⟨htrad, hobt⟩
      · rw [hobt]
        exact Desenlace.rechaza hfalla htrad hr (h.quieta hquieta) (fueraIgual_quieta hquieta)
      · rw [hobt]
        exact Desenlace.indefinido hfalla htrad

/-- Without a cache the write goes to the frame, and a negative offset out of it. -/
theorem directa_desenlace (cpu : Cpu) (h : RafagaSana pid p todas s)
    (hexc : ¬ ExcedeLimite cfg dl (aInt datos.length)) (hvacia : s.cache.entradas = []) :
    Desenlace pid p s (.write dl datos) (manejarInstruccionWrite cpu s pid dl datos) := by
  have hacierta : Acierta s pid (.write dl datos) ↔
      (indiceTlb s.tlb.entradas pid (obtenerPagina cfg dl)).isSome := by
    rw [Acierta, if_neg (not_not.mpr hvacia)]
  rcases marco_casos cpu soloMarca_timestamp h fun _ => trivial with
    ⟨marco, s₁, hobt, hhallada, hmapeo, hcache, hquieta, htlb⟩ | ⟨hi, hrechazo⟩
  · have halcanza : Alcanza p s pid (.write dl datos) := by
      rcases hhallada with hi | htrad
      · exact Or.inl (hacierta.mpr hi)
      · exact Or.inr ⟨_, htrad⟩
    have hint := Integra.de_invariante h.invariante
    have hint₁ := hint.quieta hquieta
    have hcon₁ := hquieta.conMarcos hint.largo
    have hsana₁ := h.con hcon₁ htlb h.cache
    have hasignado : MarcoAsignado p marco := by
      obtain ⟨-, ⟨⟨dl', -, -, htrad⟩, -⟩, -⟩ := hmapeo
      exact asignado_de_traducir htrad
    obtain ⟨-, -, hmarco, hmax⟩ := hmapeo
    obtain ⟨f, rfl⟩ := Int.eq_ofNat_of_zero_le hmarco
    have hoff : obtenerOffset cfg dl < cfg.tamPagina := Int.tmod_lt_of_pos _ (tamPagina_int_pos cfg)
    have hint' := esInt_aInt datos.length
    -- inside the buffer or not, by the sign of offset and size
    have hescribe : 0 ≤ obtenerOffset cfg dl → 0 ≤ aInt datos.length → _ := fun h₀ h₁ =>
      escribirBytes_copia cpu pid hint₁.pids hint₁.largo (Int.ofNat_lt.mp hmax) ⟨h₀, hoff⟩
        ⟨h₁, hint'.2⟩ (aInt_le (Int.natCast_nonneg _)) (not_lt.mp hexc)
    rw [write_directa hexc hvacia hobt]
    by_cases hen : EnPagina cfg (obtenerOffset cfg dl) (aInt datos.length)
    · rcases hescribe hen.1 hen.2.1 with ⟨hcopia, -⟩ | ⟨contenido, m', -, hesc, hcon⟩
      · rw [copiarAPagina, if_pos hen] at hcopia
        cases hcopia
      · rw [hesc]
        have hsana : RafagaSana pid p todas { s₁ with memoria := m' } :=
          h.con (hcon₁.trans hcon) htlb (hcache ▸ h.cache)
        refine Desenlace.accede halcanza hsana fun _ => ⟨hen, ?_⟩
        apply (fueraIgual_quieta hquieta).trans (fueraIgual_con hcon _)
        intro k hk
        apply Function.update_of_ne
        rintro rfl
        exact hk hasignado
    · cases hesc : escribirBytesEnMemoriaPrincipal cpu s₁.memoria f (obtenerOffset cfg dl)
        (aInt datos.length) datos pid with
      | none => exact Desenlace.desborda halcanza hen
      | some m' =>
        obtain ⟨hinv, hproc⟩ := escribirBytes_some hsana₁.invariante hesc
        obtain ⟨q, hq, hpq⟩ := hsana₁.proceso
        have hsana : RafagaSana pid p todas { s₁ with memoria := m' } :=
          ⟨hinv, proceso_mismas hproc hq hpq, htlb, hcache ▸ h.cache⟩
        refine Desenlace.accede halcanza hsana fun h₀ => ?_
        by_cases hneg : aInt datos.length < 0
        · rw [escribirBytes_negativo hneg] at hesc
          cases hesc
        · rcases hescribe h₀ (not_lt.mp hneg) with ⟨-, hno⟩ | ⟨contenido, m'', hcopia, -⟩
          · rw [hno] at hesc
            cases hesc
          · rw [copiarAPagina, if_neg hen] at hcopia
            cases hcopia
  · have hfalla : ¬ Acierta s pid (.write dl datos) := by
      rw [hacierta, hi]
      exact Bool.false_ne_true
    rw [manejarInstruccionWrite, if_neg hexc, if_neg (not_not.mpr hvacia)]
    rcases hrechazo with ⟨r, m', htrad, hr, hobt, hquieta⟩ | ⟨htrad, hobt⟩
    · rw [hobt]
      exact Desenlace.rechaza hfalla htrad hr (h.quieta hquieta) (fueraIgual_quieta hquieta)
    · rw [hobt]
      exact Desenlace.indefinido hfalla htrad

theorem write_desenlace (cpu : Cpu) (h : RafagaSana pid p todas s)
    (hexc : ¬ ExcedeLimite cfg dl (aInt datos.length)) :
    Desenlace pid p s (.write dl datos) (manejarInstruccionWrite cpu s pid dl datos) := by
  have hint := Integra.de_invariante h.invariante
  by_cases hvacia : s.cache.entradas = []
  · exact directa_desenlace cpu h hexc hvacia
  · cases hbusca : obtenerEntradaCache s.cache pid (obtenerPagina cfg dl) with
    | some i =>
      obtain ⟨e, he, hoc, -, -⟩ := obtenerEntrada_some hbusca
      have hsana := h.cache.entradas e (List.mem_of_getElem? he) hoc
      have halcanza : Alcanza p s pid (.write dl datos) := by
        left
        rw [Acierta, if_pos hvacia, hbusca]
        rfl
      rw [write_acierto hexc hvacia hbusca he]
      rcases copiarAPagina_casos e.contenido (obtenerOffset cfg dl) (aInt datos.length) datos with
        ⟨hen, contenido, hcopia⟩ | ⟨hen, hcopia⟩
      · have hsana' : EntradaSana cfg pid (TraducidaEn p todas)
            { e with contenido := contenido, bitModificado := true, bitUso := true } :=
          ⟨hsana.mapeo, length_copiarAPagina hsana.largo hcopia⟩
        rw [hcopia]
        exact Desenlace.accede halcanza (sana_conEntrada h hsana') fun _ =>
          ⟨hen, FueraIgual.refl _ _⟩
      · rw [hcopia]
        exact Desenlace.desborda halcanza hen
    | none =>
      have hfalla : ¬ Acierta s pid (.write dl datos) := by
        rw [Acierta, if_pos hvacia, hbusca]
        exact Bool.false_ne_true
      rcases traduccion_casos cpu dl h fun _ => trivial with
        ⟨htrad, hped⟩ | ⟨marco, m, htrad, -, hped, hmarco, hmapeo, hquieta⟩ |
          ⟨r, m', htrad, hr, hped, hquieta⟩
      · rw [manejarInstruccionWrite, if_neg hexc, if_pos hvacia, hbusca]
        dsimp only
        rw [hped]
        exact Desenlace.indefinido hfalla htrad
      · have halcanza : Alcanza p s pid (.write dl datos) := Or.inr ⟨_, htrad⟩
        obtain ⟨m', hlee, hlargo, hquieta'⟩ := lectura_sana cpu (hint.quieta hquieta) hmapeo
        rw [write_falla hexc hvacia hbusca hped hmarco hlee]
        rcases copiarAPagina_casos (vista m marco.toNat) (obtenerOffset cfg dl) (aInt datos.length)
          datos with
          ⟨hen, contenido, hcopia⟩ | ⟨hen, hcopia⟩
        · obtain ⟨c', m'', hins, hsana, hfuera⟩ := insercion_sana cpu h
              (hquieta.trans hquieta') h.tlb
            hmapeo (length_copiarAPagina hlargo hcopia) true
          rw [hcopia, Option.bind_some, hins]
          exact Desenlace.accede halcanza hsana fun _ => ⟨hen, hfuera⟩
        · rw [hcopia]
          exact Desenlace.desborda halcanza hen
      · rw [manejarInstruccionWrite, if_neg hexc, if_pos hvacia, hbusca]
        dsimp only
        rw [hped]
        exact Desenlace.rechaza hfalla htrad hr (h.quieta hquieta) (fueraIgual_quieta hquieta)

theorem acceso_desenlace (cpu : Cpu) (h : RafagaSana pid p todas s) {acc : Acceso}
    (hexc : ¬ ExcedeLimite cfg acc.direccionLogica acc.tamanio) :
    Desenlace pid p s acc (ejecutarAcceso cpu s pid acc) := by
  cases acc with
  | read dl tamanio => exact read_desenlace cpu h hexc
  | write dl datos => exact write_desenlace cpu h hexc

theorem acceso_excedido {acc : Acceso} (hexc : ExcedeLimite cfg acc.direccionLogica acc.tamanio) :
    ejecutarAcceso cpu s pid acc = some (.segmentationFault, s) := by
  cases acc with
  | read dl tamanio => exact if_pos hexc
  | write dl datos => exact if_pos hexc

end Desenlaces

section Rafagas

variable {s s' : EstadoCpu cfg} {acc : Acceso}

/-- States of a burst of `pid`, whose process is `p` when it starts: its own accesses, and
any requests of others that leave the pages of the process alone. -/
inductive AlcanzableRafaga (cpu : Cpu) (pid : ℤ) (p : Proceso cfg) : EstadoCpu cfg → Prop
  | inicio {s : EstadoCpu cfg} : Alcanzable s.memoria →
      buscarProceso s.memoria.diccionarioProcesos pid = some p → MmuLimpia s →
      AlcanzableRafaga cpu pid p s
  | acceso {s s' : EstadoCpu cfg} {acc : Acceso} {r : Resultado} : AlcanzableRafaga cpu pid p s →
      ejecutarAcceso cpu s pid acc = some (r, s') → AlcanzableRafaga cpu pid p s'
  | ajena {s : EstadoCpu cfg} {env : Entorno} {pet : Peticion} {envios : List Envio}
      {m' : Memoria cfg} {q : Proceso cfg} : AlcanzableRafaga cpu pid p s →
        PidFresco s.memoria pet →
      atenderPostHandshake env s.memoria pet = some (envios, m') →
      buscarProceso m'.diccionarioProcesos pid = some q → MismasPaginas p q →
      AlcanzableRafaga cpu pid p { s with memoria := m' }

theorem sana_acceso {r : Resultado} (h : RafagaSana pid p todas s)
    (hacc : ejecutarAcceso cpu s pid acc = some (r, s')) : RafagaSana pid p todas s' := by
  by_cases hexc : ExcedeLimite cfg acc.direccionLogica acc.tamanio
  · rw [acceso_excedido hexc] at hacc
    cases hacc
    exact h
  · have hdes := acceso_desenlace cpu h hexc
    rw [hacc] at hdes
    cases hdes with
    | accede halcanza hsana hdentro => exact hsana
    | rechaza hfalla htrad hr hsana hfuera => exact hsana

theorem rafagaSana_de_alcanzable (h : AlcanzableRafaga cpu pid p s) : RafagaSana pid p todas s := by
  induction h with
  | inicio hm hp hs =>
    exact rafagaSana_limpia (invariante_de_alcanzable hm) hs hp ⟨rfl, rfl⟩
  | acceso _ hacc ih => exact sana_acceso ih hacc
  | ajena _ hfresco hat hq hpq ih =>
    exact ⟨invariante_efecto ih.invariante hfresco (efecto_de_atender ih.invariante.pids hat),
      ⟨_, hq, hpq⟩, ih.tlb, ih.cache⟩

/-- Protection of one access: an address that Memoria does not accept is a segmentation
fault, and neither the access nor the cleaning after it changes a byte outside. -/
def Protegido (cpu : Cpu) (pid : ℤ) (p : Proceso cfg) (s : EstadoCpu cfg) (acc : Acceso) : Prop :=
  ∃ r s', ejecutarAcceso cpu s pid acc = some (r, s') ∧
    (¬ Acepta p acc.direccionLogica → r = .segmentationFault) ∧
    FueraIgual p s.memoria s'.memoria ∧
    ∃ cache m, limpiarCacheDeProceso cpu s'.cache s'.memoria pid = some (cache, m) ∧
      FueraIgual p s'.memoria m

/-- The limit test fails; or the address is accepted, its translation is defined and the
copy stays in the page; or the address is not accepted and no table holds its page. -/
def Seguro (pid : ℤ) (p : Proceso cfg) (s : EstadoCpu cfg) (acc : Acceso) : Prop :=
  ExcedeLimite cfg acc.direccionLogica acc.tamanio ∨
  (Acepta p acc.direccionLogica ∧ ∃ r, traducir p acc.direccionLogica = some r ∧
    ∀ f, r = .traduccionOk f → EnPagina cfg (obtenerOffset cfg acc.direccionLogica) acc.tamanio) ∨
  (¬ Acepta p acc.direccionLogica ∧ ¬ Acierta s pid acc)

/-- A page that a table holds was translated. -/
theorem traducida_de_acierto (h : RafagaSana pid p todas s) (hac : Acierta s pid acc) :
    ∃ marco, Traducida p (obtenerPagina cfg acc.direccionLogica) marco := by
  have hcache : ∀ pagina : ℤ, (obtenerEntradaCache s.cache pid pagina).isSome →
      ∃ marco, Traducida p pagina marco := by
    intro pagina hsome
    obtain ⟨i, hi⟩ := Option.isSome_iff_exists.mp hsome
    obtain ⟨e, he, hoc, -, hpag⟩ := obtenerEntrada_some hi
    obtain ⟨-, ⟨htrad, -⟩, -⟩ := (h.cache.entradas e (List.mem_of_getElem? he) hoc).mapeo
    rw [hpag] at htrad
    exact ⟨_, htrad⟩
  have htlb : ∀ pagina : ℤ, (indiceTlb s.tlb.entradas pid pagina).isSome →
      ∃ marco, Traducida p pagina marco := by
    intro pagina hsome
    obtain ⟨i, hi⟩ := Option.isSome_iff_exists.mp hsome
    obtain ⟨marco, hmapea⟩ := mapea_de_indice hi
    exact ⟨marco, (h.tlb i _ _ _ hmapea).2.1.1⟩
  cases acc with
  | read dl tamanio =>
    rcases hac with hac | hac
    · exact hcache _ hac
    · exact htlb _ hac
  | write dl datos =>
    rw [Acierta] at hac
    split at hac
    · exact hcache _ hac
    · exact htlb _ hac

/-- The addresses that a table answers for and Memoria would not: less than a page below 0. -/
theorem acierto_negativo (h : RafagaSana pid p todas s) (hacierta : Acierta s pid acc)
    (hac : ¬ Acepta p acc.direccionLogica) :
    -cfg.tamPagina < acc.direccionLogica ∧ acc.direccionLogica < 0 := by
  obtain ⟨marco, htrad⟩ := traducida_de_acierto h hacierta
  by_contra hno
  exact hac (acepta_de_traducida htrad (by omega))

/-- An accepted address whose page is found is translated. -/
theorem traducir_de_alcanza (h : RafagaSana pid p todas s) (hac : Acepta p acc.direccionLogica)
    (halcanza : Alcanza p s pid acc) : ∃ f, traducir p acc.direccionLogica =
    some (.traduccionOk f) := by
  rcases halcanza with hacierta | htrad
  · obtain ⟨marco, htrad⟩ := traducida_de_acierto h hacierta
    exact ⟨marco, traducir_de_traducida hac htrad⟩
  · exact htrad

/-- In every state of a burst an access is protected exactly when it is safe. -/
theorem protegido_iff (h : AlcanzableRafaga cpu pid p s) (acc : Acceso) :
    Protegido cpu pid p s acc ↔ Seguro pid p s acc := by
  have hsana := rafagaSana_de_alcanzable h
  have hlimpia : ∀ s' : EstadoCpu cfg, RafagaSana pid p todas s' → ∃ cache m,
      limpiarCacheDeProceso cpu s'.cache s'.memoria pid = some (cache, m) ∧
        FueraIgual p s'.memoria m := fun s' hs' => limpieza_sana cpu hs'
  by_cases hexc : ExcedeLimite cfg acc.direccionLogica acc.tamanio
  · refine ⟨fun _ => Or.inl hexc, fun _ => ?_⟩
    exact ⟨_, s, acceso_excedido hexc, fun _ => rfl, FueraIgual.refl _ _, hlimpia s hsana⟩
  · have hdes := acceso_desenlace cpu hsana hexc
    rw [Protegido]
    generalize ejecutarAcceso cpu s pid acc = x at hdes ⊢
    by_cases hac : Acepta p acc.direccionLogica
    · have hoff : 0 ≤ obtenerOffset cfg acc.direccionLogica := Int.tmod_nonneg _ hac.2
      cases hdes with
      | accede halcanza hs' hdentro =>
        obtain ⟨hen, hfuera⟩ := hdentro hoff
        obtain ⟨f, htrad⟩ := traducir_de_alcanza hsana hac halcanza
        constructor
        · intro _
          exact Or.inr (Or.inl ⟨hac, _, htrad, fun _ _ => hen⟩)
        · intro _
          exact ⟨_, _, rfl, fun hno => absurd hac hno, hfuera, hlimpia _ hs'⟩
      | desborda halcanza hfuera =>
        obtain ⟨f, htrad⟩ := traducir_de_alcanza hsana hac halcanza
        constructor
        · rintro ⟨r, s', hx, -⟩
          cases hx
        · rintro (hexc' | ⟨-, r, hr, hen⟩ | ⟨hno, -⟩)
          · exact absurd hexc' hexc
          · rw [htrad] at hr
            cases hr
            exact absurd (hen f rfl) hfuera
          · exact absurd hac hno
      | rechaza hfalla htrad hr hs' hfuera =>
        constructor
        · intro _
          exact Or.inr (Or.inl ⟨hac, _, htrad, fun f hf => absurd hf (hr f)⟩)
        · intro _
          exact ⟨_, _, rfl, fun _ => rfl, hfuera, hlimpia _ hs'⟩
      | indefinido hfalla htrad =>
        constructor
        · rintro ⟨r, s', hx, -⟩
          cases hx
        · rintro (hexc' | ⟨-, r, hr, -⟩ | ⟨hno, -⟩)
          · exact absurd hexc' hexc
          · rw [htrad] at hr
            cases hr
          · exact absurd hac hno
    · have hfuera := traducir_fuera hac
      -- Memoria refuses the address, so only a table can have given its page
      have hacierta : Alcanza p s pid acc → Acierta s pid acc := by
        rintro (hac' | ⟨f, htrad⟩)
        · exact hac'
        · rw [hfuera] at htrad
          cases htrad
      have hinseguro : Acierta s pid acc → ¬ Seguro pid p s acc := by
        rintro hac' (hexc' | ⟨hsi, -⟩ | ⟨-, hno⟩)
        · exact hexc hexc'
        · exact hac hsi
        · exact hno hac'
      cases hdes with
      | accede halcanza hs' hdentro =>
        refine ⟨?_, fun hseg => absurd hseg (hinseguro (hacierta halcanza))⟩
        rintro ⟨r, s', hx, hseg, -⟩
        cases hx
        cases hseg hac
      | desborda halcanza hno =>
        refine ⟨?_, fun hseg => absurd hseg (hinseguro (hacierta halcanza))⟩
        rintro ⟨r, s', hx, -⟩
        cases hx
      | rechaza hfalla htrad hr hs' hfuera' =>
        constructor
        · intro _
          exact Or.inr (Or.inr ⟨hac, hfalla⟩)
        · intro _
          exact ⟨_, _, rfl, fun _ => rfl, hfuera', hlimpia _ hs'⟩
      | indefinido hfalla htrad =>
        rw [hfuera] at htrad
        cases htrad

/-- Process 2 has frame 0, process 1 frame 1, and a TLB of one entry holds page 0 of
process 1. -/
theorem rafaga_ejemplo :
    ∃ (p : Proceso configEjemplo) (s : EstadoCpu configEjemplo), AlcanzableRafaga cpuEjemplo 1 p s ∧
      Acepta p 0 ∧ traducir p 0 = some (.traduccionOk 1) ∧
      ∃ s', ejecutarAcceso cpuEjemplo s 1 (.write (-1) [90]) = some (.hecho [], s') := by
  have hm : ((ejecutar (inicial configEjemplo) [(entornoEjemplo, .initProc 2 4 0 []),
      (entornoEjemplo, .initProc 1 4 0 [])]).any fun m =>
        (buscarProceso m.diccionarioProcesos 1).any fun p =>
          Acepta p 0 ∧ traducir p 0 = some (.traduccionOk 1) ∧
          (ejecutarAcceso cpuEjemplo (iniciarMmu 1 0 m) 1 (.write 0 [65])).any fun r =>
            (ejecutarAcceso cpuEjemplo r.2 1 (.write (-1) [90])).any fun r' =>
              r'.1 = .hecho []) = true := by decide +kernel
  obtain ⟨m, hrun, hm⟩ := (Option.any_eq_true _ _).mp hm
  obtain ⟨p, hp, hm⟩ := (Option.any_eq_true _ _).mp hm
  simp only [decide_eq_true_eq] at hm
  obtain ⟨hac, htrad, hm⟩ := hm
  obtain ⟨⟨r, s⟩, hs, hm⟩ := (Option.any_eq_true _ _).mp hm
  obtain ⟨⟨r', s'⟩, hs', hr'⟩ := (Option.any_eq_true _ _).mp hm
  simp only [decide_eq_true_eq] at hr'
  subst hr'
  exact ⟨p, s, .acceso (.inicio (alcanzable_ejecutar _ .inicial hrun) hp
    (mmuLimpia_iniciar 1 0 m)) hs,
    hac, htrad, s', hs'⟩

theorem protegido_ejemplo :
    ∃ (p : Proceso configEjemplo) (s : EstadoCpu configEjemplo), AlcanzableRafaga cpuEjemplo 1 p s ∧
      Protegido cpuEjemplo 1 p s (.write 0 [66]) := by
  obtain ⟨p, s, hs, hac, htrad, -⟩ := rafaga_ejemplo
  refine ⟨p, s, hs, (protegido_iff hs _).mpr (Or.inr (Or.inl ⟨hac, _, htrad, ?_⟩))⟩
  intro f _
  decide

/-- A write at -1 hits page 0 in the TLB and lands in the frame before, of another process. -/
theorem escribe_fuera :
    ¬ ∀ (p : Proceso configEjemplo) (s : EstadoCpu configEjemplo) (acc : Acceso),
      AlcanzableRafaga cpuEjemplo 1 p s → Protegido cpuEjemplo 1 p s acc := by
  intro h
  obtain ⟨p, s, hs, -, -, s', hacc⟩ := rafaga_ejemplo
  obtain ⟨r, s'', hacc', hseg, -⟩ := h p s (.write (-1) [90]) hs
  rw [hacc] at hacc'
  cases hacc'
  have hac : ¬ Acepta p (-1) := by
    rintro ⟨-, hneg⟩
    exact absurd hneg (by decide)
  cases hseg hac

end Rafagas

end CpuProteccion
