import Tpssoo.CpuAccesos
import Tpssoo.MemoriaAdmision

/-!
# What a CPU gets from Memoria

User memory seen as frames, and the three requests of a CPU: a translation and a read
leave stores and page tables alone, a write inside a frame changes that frame only.
-/
namespace CpuMemoria

open EnterosC Protocolo RangosBytes MemoriaEstado MemoriaSwap MemoriaTraduccion MemoriaPeticiones
  MemoriaFilas MemoriaEfectos MemoriaInvariante MemoriaAdmision CpuEstado CpuAccesos

variable {cfg : Config} {cpu : Cpu} {m m' : Memoria cfg} {pid dl : ℤ}

section Marcos

variable {memoria memoria' xs ys : List Byte} {f : ℕ}

/-- Frame `f` of user memory. -/
def marcosDe (cfg : Config) (memoria : List Byte) (f : ℕ) : List Byte :=
  leerRango memoria (f * cfg.tamPagina) cfg.tamPagina

theorem length_marcosDe (hmem : memoria.length = cfg.tamMemoria) (hf : f < cfg.cantidadMarcos) :
    (marcosDe cfg memoria f).length = cfg.tamPagina := by
  have := cfg.marco_dentro hf
  apply length_leerRango_of_le
  omega

/-- A write inside a frame is the write of that frame. -/
theorem marcosDe_escribir (hmem : memoria.length = cfg.tamMemoria) (hf : f < cfg.cantidadMarcos)
    {i : ℕ} (hi : i + ys.length ≤ cfg.tamPagina) :
    marcosDe cfg (escribirRango memoria (f * cfg.tamPagina + i) ys) =
      Function.update (marcosDe cfg memoria) f (escribirRango (marcosDe cfg memoria f) i ys) := by
  have hdentro := cfg.marco_dentro hf
  funext k
  by_cases hk : k = f
  · subst hk
    rw [Function.update_self]
    have h : leerRango (escribirRango memoria (k * cfg.tamPagina + i) ys) (k * cfg.tamPagina)
        cfg.tamPagina = escribirRango (leerRango memoria (k * cfg.tamPagina) cfg.tamPagina)
          (k * cfg.tamPagina + i - k * cfg.tamPagina) ys :=
      leer_escribir_dentro (by omega) (by omega) (by omega)
    rw [Nat.add_sub_cancel_left] at h
    exact h
  · rw [Function.update_of_ne hk]
    apply leer_escribir_disjunto (by omega)
    rcases bloques_disjuntos (t := cfg.tamPagina) hk with h | h
    · left
      omega
    · right
      omega

theorem escribirRango_todo (h : xs.length = ys.length) : escribirRango xs 0 ys = ys := by
  simp [escribirRango, ← h]

/-- A byte of user memory is in its frame. -/
theorem byte_de_marco (cfg : Config) (memoria : List Byte) (i : ℕ) :
    (marcosDe cfg memoria (i / cfg.tamPagina))[i % cfg.tamPagina]? = memoria[i]? := by
  have hresto : i % cfg.tamPagina < cfg.tamPagina := Nat.mod_lt _ cfg.tamPagina_pos
  rw [marcosDe, getElem?_leerRango, if_pos hresto, Nat.div_add_mod']

/-- Memories with the same frames are the same. -/
theorem memoria_ext (h : marcosDe cfg memoria = marcosDe cfg memoria') : memoria = memoria' := by
  apply List.ext_getElem?
  intro i
  rw [← byte_de_marco cfg memoria, ← byte_de_marco cfg memoria', h]

/-- User memory of a state, by frames. -/
abbrev vista (m : Memoria cfg) : ℕ → List Byte := marcosDe cfg m.almacen.memoriaUsuario

end Marcos

section Tablas

/-- A request that left stores and page tables alone. -/
structure Quieta (m m' : Memoria cfg) : Prop where
  almacen : m'.almacen = m.almacen
  procesos : procesos m' = procesos m

/-- `m'` is `m` with the frames `r`: page tables are the same. -/
structure ConMarcos (m m' : Memoria cfg) (r : ℕ → List Byte) : Prop where
  almacen : m'.almacen = { m.almacen with memoriaUsuario := m'.almacen.memoriaUsuario }
  procesos : procesos m' = procesos m
  largo : m'.almacen.memoriaUsuario.length = cfg.tamMemoria
  marcos : vista m' = r

theorem Quieta.conMarcos (h : Quieta m m') (hmem : m.almacen.memoriaUsuario.length =
    cfg.tamMemoria) :
    ConMarcos m m' (vista m) where
  almacen := by rw [h.almacen]
  procesos := h.procesos
  largo := h.almacen ▸ hmem
  marcos := by rw [vista, h.almacen]

theorem ConMarcos.trans {m'' : Memoria cfg} {r r' : ℕ → List Byte} (h : ConMarcos m m' r)
    (h' : ConMarcos m' m'' r') : ConMarcos m m'' r' where
  almacen := by rw [h'.almacen, h.almacen]
  procesos := h'.procesos.trans h.procesos
  largo := h'.largo
  marcos := h'.marcos

theorem Quieta.trans {m'' : Memoria cfg} (h : Quieta m m') (h' : Quieta m' m'') : Quieta m m'' where
  almacen := h'.almacen.trans h.almacen
  procesos := h'.procesos.trans h.procesos

theorem pids_procesos (h : procesos m' = procesos m) :
    m'.diccionarioProcesos.map Proceso.pid = m.diccionarioProcesos.map Proceso.pid := by
  rw [← pids_soloSwap, ← pids_soloSwap m.diccionarioProcesos]
  exact congrArg _ h

theorem buscar_procesos (h : procesos m' = procesos m) (pid : ℤ) :
    (buscarProceso m'.diccionarioProcesos pid).map soloMetricasSwap =
      (buscarProceso m.diccionarioProcesos pid).map soloMetricasSwap := by
  have hmap : ∀ ps : List (Proceso cfg), (buscarProceso ps pid).map soloMetricasSwap =
      buscarProceso (ps.map soloMetricasSwap) pid := by
    intro ps
    rw [buscarProceso, buscarProceso, List.find?_map]
    rfl
  rw [hmap, hmap]
  exact congrArg (fun ps => buscarProceso ps pid) h

/-- The same pages and the same size: all that a translation reads. -/
structure MismasPaginas (p q : Proceso cfg) : Prop where
  tabla : q.tablaNivel1 = p.tablaNivel1
  tam : q.tamProceso = p.tamProceso

theorem mismasPaginas_soloSwap {p q : Proceso cfg} (h : soloMetricasSwap p = soloMetricasSwap q) :
    MismasPaginas q p where
  tabla := (congrArg (·.tablaNivel1) h :
    (soloMetricasSwap p).tablaNivel1 = (soloMetricasSwap q).tablaNivel1)
  tam := (congrArg (·.tamProceso) h : (soloMetricasSwap p).tamProceso =
      (soloMetricasSwap q).tamProceso)

theorem acepta_mismas {p q : Proceso cfg} (h : MismasPaginas p q) : Acepta q dl ↔ Acepta p dl := by
  rw [Acepta, Acepta, totalPaginas, totalPaginas, h.tam]

theorem traducir_mismas {p q : Proceso cfg} (h : MismasPaginas p q) (dl : ℤ) :
    traducir q dl = traducir p dl := by
  by_cases hac : Acepta p dl
  · rw [traducir, traducir, if_pos hac, if_pos ((acepta_mismas h).mpr hac), h.tabla]
  · rw [traducir, traducir, if_neg hac, if_neg (mt (acepta_mismas h).mp hac)]

/-- A process is still there, with its pages, after a request that changed no table. -/
theorem proceso_procesos (h : procesos m' = procesos m) {p : Proceso cfg}
    (hp : buscarProceso m.diccionarioProcesos pid = some p) :
    ∃ q, buscarProceso m'.diccionarioProcesos pid = some q ∧ MismasPaginas p q := by
  have hbusca := buscar_procesos h pid
  rw [hp, Option.map_some] at hbusca
  obtain ⟨q, hq, hqp⟩ := Option.map_eq_some_iff.mp hbusca
  exact ⟨q, hq, mismasPaginas_soloSwap hqp⟩

/-- The invariant of Memoria does not depend on the bytes of user memory. -/
theorem invariante_con {r : ℕ → List Byte} (hinv : Invariante m) (h : ConMarcos m m' r) :
    Invariante m' where
  pids := pids_procesos h.procesos ▸ hinv.pids
  formas := by
    intro p hp
    have hmem : soloMetricasSwap p ∈ procesos m := h.procesos ▸ List.mem_map_of_mem hp
    obtain ⟨q, hq, hqp⟩ := List.mem_map.mp hmem
    have htabla := (mismasPaginas_soloSwap hqp).tabla
    intro t ht
    exact hinv.formas q hq t (htabla.trans ht)
  entradas := by
    have htodas : todasEntradas m'.diccionarioProcesos = todasEntradas m.diccionarioProcesos := by
      rw [← todasEntradas_soloSwap, ← todasEntradas_soloSwap m.diccionarioProcesos]
      exact congrArg todasEntradas h.procesos
    rw [htodas]
    have hent := hinv.entradas
    exact
      { memoria := h.largo
        bitmap := by rw [h.almacen]; exact hent.bitmap
        duenosMarcos := by rw [h.almacen]; exact hent.duenosMarcos
        duenosSlots := by rw [h.almacen]; exact hent.duenosSlots
        exclusion := hent.exclusion }

end Tablas

section Pedidos

/-- What the CPU gets for each way out of the translation. -/
theorem pedirTraduccion_casos (cpu : Cpu) (dl : ℤ)
    (hn : (m.diccionarioProcesos.map Proceso.pid).Nodup)
    {p : Proceso cfg} (hp : buscarProceso m.diccionarioProcesos pid = some p) :
    (traducir p dl = none ∧ pedirTraduccionAMemoria cpu m pid dl = none) ∨
    (∃ f, traducir p dl = some (.traduccionOk f)) ∨
    (∃ r m', traducir p dl = some r ∧ (∀ f, r ≠ .traduccionOk f) ∧
      pedirTraduccionAMemoria cpu m pid dl = some (-1, m') ∧ Quieta m m') := by
  have hman : manejarTraduccionTabla m pid dl =
      (traducir p dl).map (responderTraduccion m p pid dl) := by
    rw [manejarTraduccionTabla, hp]
  have hquieta : ∀ (envios : List Envio) (m' : Memoria cfg),
      manejarTraduccionTabla m pid dl = some (envios, m') → Quieta m m' := by
    intro envios m' h
    obtain ⟨ha, hpr, -⟩ := traduccion_quieta hn h
    exact ⟨ha, hpr⟩
  cases htr : traducir p dl with
  | none =>
    left
    rw [htr, Option.map_none] at hman
    refine ⟨rfl, ?_⟩
    rw [pedirTraduccionAMemoria, atenderPostHandshake, hman]
    rfl
  | some r =>
    right
    rw [htr, Option.map_some] at hman
    cases r with
    | traduccionOk f => exact Or.inl ⟨f, rfl⟩
    | paginaFueraDeRango =>
      right
      refine ⟨_, _, rfl, by simp, ?_, hquieta _ _ hman⟩
      rw [pedirTraduccionAMemoria, atenderPostHandshake, hman]
      rfl
    | errorTraduccion =>
      right
      refine ⟨_, _, rfl, by simp, ?_, hquieta _ _ hman⟩
      rw [pedirTraduccionAMemoria, atenderPostHandshake, hman]
      rfl
    | marcoNoPresente =>
      right
      refine ⟨_, _, rfl, by simp, ?_, hquieta _ _ hman⟩
      rw [pedirTraduccionAMemoria, atenderPostHandshake, hman]
      rfl

variable (cpu) in
theorem pedirTraduccion_ok (hn : (m.diccionarioProcesos.map Proceso.pid).Nodup) {marco : ℤ}
    (h : TraduceA m pid dl marco) :
    ∃ m', pedirTraduccionAMemoria cpu m pid dl = some (marco, m') ∧ Quieta m m' := by
  obtain ⟨paquete, m', hat, hcod, hlee⟩ := h
  obtain ⟨ha, hp, -⟩ := traduccion_quieta hn hat
  refine ⟨m', ?_, ha, hp⟩
  simp [pedirTraduccionAMemoria, atenderPostHandshake, hat, hcod, hlee]

theorem esInt_marco {f : ℕ} (off : ℕ) (hf : f < cfg.cantidadMarcos) (hoff : off ≤ cfg.tamPagina) :
    EsInt ((f * cfg.tamPagina + off : ℕ) : ℤ) := by
  have hdentro := cfg.marco_dentro hf
  have htam := cfg.tamMemoria_int
  exact ⟨by omega, by omega⟩

theorem direccionFisica_marco {f : ℕ} (off : ℕ) (hf : f < cfg.cantidadMarcos)
    (hoff : off ≤ cfg.tamPagina) :
    direccionFisica cfg f off = ((f * cfg.tamPagina + off : ℕ) : ℤ) := by
  have hbase := esInt_marco 0 hf (Nat.zero_le _)
  rw [Nat.add_zero] at hbase
  rw [direccionFisica, ← Int.natCast_mul, aInt_eq hbase, ← Int.natCast_add,
    aInt_eq (esInt_marco off hf hoff)]

/-- An access inside a frame passes the bounds test. -/
theorem limites_marco {f n : ℕ} (off : ℕ) (hf : f < cfg.cantidadMarcos)
    (hoff : off + n ≤ cfg.tamPagina) :
    ¬ FueraDeLimites cfg ((f * cfg.tamPagina + off : ℕ) : ℤ) n ∧
      CopiaValida cfg ((f * cfg.tamPagina + off : ℕ) : ℤ) n := by
  have hdentro := cfg.marco_dentro hf
  constructor
  · rintro (h | h)
    · omega
    · rw [← Int.natCast_add, Nat.add_assoc, aInt_eq (esInt_marco (off + n) hf hoff)] at h
      omega
  · exact ⟨by omega, by omega, by omega⟩

theorem malloc_pagina : ¬ aInt ((cfg.tamPagina : ℤ) + 1) < 0 := by
  have hpos := cfg.tamPagina_pos
  have htam := cfg.tamPagina_int
  by_cases hmax : cfg.tamPagina + 1 < 2 ^ 31
  · rw [aInt_eq ⟨by omega, by omega⟩]
    omega
  · -- a page of 2 ^ 31 - 1 bytes is not a power of two
    have hpot := cfg.pagina_potencia
    have hval : cfg.tamPagina = 2 ^ 31 - 1 := by omega
    rw [hval] at hpot
    exact absurd hpot (by decide)

variable (cpu pid) in
theorem leerBytes_marco (hn : (m.diccionarioProcesos.map Proceso.pid).Nodup)
    (hmem : m.almacen.memoriaUsuario.length = cfg.tamMemoria) {f : ℕ}
    (hf : f < cfg.cantidadMarcos) :
    ∃ m', leerBytesDeMemoriaPrincipal cpu m f 0 cfg.tamPagina pid = some (some (vista m f), m') ∧
      Quieta m m' := by
  obtain ⟨ha, hp, -⟩ := contarAcceso_quieto (m := m) hn pid
    (f := fun x => { x with lecturasMemoria := x.lecturasMemoria + 1 }) fun _ => ⟨rfl, rfl⟩
  have hdir : direccionFisica cfg f 0 = ((f * cfg.tamPagina + 0 : ℕ) : ℤ) :=
    direccionFisica_marco 0 hf (Nat.zero_le _)
  obtain ⟨hlimites, hcopia⟩ := limites_marco 0 hf (Nat.zero_add cfg.tamPagina).le
  rw [Nat.add_zero] at hdir hlimites hcopia
  have hvacia : leerRango m.almacen.memoriaUsuario (f * cfg.tamPagina) cfg.tamPagina ≠ [] := by
    have hlargo := length_marcosDe (f := f) hmem hf
    have hpos := cfg.tamPagina_pos
    intro h
    rw [marcosDe, h, List.length_nil] at hlargo
    omega
  refine ⟨_, ?_, ha, hp⟩
  simp only [leerBytesDeMemoriaPrincipal, atenderPostHandshake, manejarLecturaDireccionFisica, hdir,
    leerMemoriaFisica, if_neg hlimites, if_neg malloc_pagina, if_pos hcopia, ha,
      Option.bind_eq_bind,
    Option.bind_some, Option.pure_def, agregarAPaquete, crearPaquete, List.nil_append,
    Int.toNat_natCast]
  rw [if_neg (by simp), if_neg hvacia]
  rfl

variable (cpu pid) in
/-- A write inside a frame. -/
theorem escribirBytes_marco (hn : (m.diccionarioProcesos.map Proceso.pid).Nodup)
    (hmem : m.almacen.memoriaUsuario.length = cfg.tamMemoria) {f off n : ℕ} {datos : List Byte}
    (hf : f < cfg.cantidadMarcos) (hoff : off + n ≤ cfg.tamPagina) (hn' : n ≤ datos.length) :
    ∃ m', escribirBytesEnMemoriaPrincipal cpu m f off n datos pid = some m' ∧
      ConMarcos m m' (Function.update (vista m) f (escribirRango (vista m f) off
        (datos.take n))) := by
  obtain ⟨ha, hp, -⟩ := contarAcceso_quieto (m := m) hn pid
    (f := fun x => { x with escriturasMemoria := x.escriturasMemoria + 1 }) fun _ => ⟨rfl, rfl⟩
  have hdir := direccionFisica_marco off hf (by omega)
  obtain ⟨hlimites, hcopia⟩ := limites_marco off hf hoff
  have hlargo : (datos.take n).length = n := List.length_take_of_le hn'
  have hdentro := cfg.marco_dentro hf
  have hpaquete : ¬ ((n : ℤ) < 0 ∨ ((datos.take n).length : ℤ) < n) := by omega
  have htoma : (datos.take n).take n = datos.take n := List.take_of_length_le hlargo.le
  let m₁ := contarAcceso m pid fun x => { x with escriturasMemoria := x.escriturasMemoria + 1 }
  let memoria := escribirRango m₁.almacen.memoriaUsuario (f * cfg.tamPagina + off) (datos.take n)
  refine ⟨conAlmacen m₁ { m₁.almacen with memoriaUsuario := memoria }, ?_, ?_, hp, ?_, ?_⟩
  · simp only [escribirBytesEnMemoriaPrincipal, atenderPostHandshake, Int.toNat_natCast, htoma,
      if_neg hpaquete, manejarEscrituraDireccionFisica, hdir, escribirMemoriaFisica,
        if_neg hlimites,
      if_pos hcopia, Option.bind_eq_bind, Option.bind_some, Option.pure_def, responder]
    rfl
  · dsimp only [conAlmacen, m₁]
    rw [ha]
  · dsimp only [conAlmacen, memoria, m₁]
    rw [ha, length_escribirRango]
    · exact hmem
    · omega
  · dsimp only [vista, conAlmacen, memoria, m₁]
    rw [ha, marcosDe_escribir hmem hf (by omega)]

theorem escribirBytes_negativo {marco offset tamanio : ℤ} {datos : List Byte} (h : tamanio < 0) :
    escribirBytesEnMemoriaPrincipal cpu m marco offset tamanio datos pid = none := by
  rw [escribirBytesEnMemoriaPrincipal, atenderPostHandshake, if_pos (Or.inl h)]
  rfl

/-- Whatever its range, a write keeps the invariant and the page tables. -/
theorem escribirBytes_some (hinv : Invariante m) {marco offset tamanio : ℤ} {datos : List Byte}
    (h : escribirBytesEnMemoriaPrincipal cpu m marco offset tamanio datos pid = some m') :
    Invariante m' ∧ procesos m' = procesos m := by
  obtain ⟨⟨envios, m₁⟩, hat, hresto⟩ := Option.bind_eq_some_iff.mp h
  have hm : m₁ = m' := by
    dsimp only at hresto
    split at hresto
    · exact Option.some.inj hresto
    · cases hresto
  subst hm
  have hef := efecto_de_atender hinv.pids hat
  have hfresco : PidFresco m (.escribirMemoria pid marco offset tamanio
    (datos.take tamanio.toNat)) := trivial
  refine ⟨invariante_efecto hinv hfresco hef, ?_⟩
  cases hef with
  | quieto ha hp => exact hp
  | escritura hcopia hlargo ha hp => exact hp

/-- A size that overflows the int sum of both bounds tests: the copy is undefined. -/
theorem escribirBytes_desborde {f off n : ℕ} {datos : List Byte} (hf : f < cfg.cantidadMarcos)
    (hoff : off < cfg.tamPagina) (hn : n ≤ datos.length) (hint : n < 2 ^ 31)
    (hfuera : cfg.tamPagina < off + n) (hlim : aInt ((off + n : ℕ) : ℤ) ≤ cfg.tamPagina) :
    escribirBytesEnMemoriaPrincipal cpu m f off n datos pid = none := by
  have hdentro := cfg.marco_dentro hf
  have htam := cfg.tamMemoria_int
  have hgrande : 2 ^ 31 ≤ off + n := by
    by_contra hchico
    rw [aInt_eq ⟨by omega, by omega⟩] at hlim
    omega
  have hvuelta : aInt (((f * cfg.tamPagina + off : ℕ) : ℤ) + n) < 0 := by
    have hsuma : aInt (((f * cfg.tamPagina + off : ℕ) : ℤ) + n) =
        ((f * cfg.tamPagina + off : ℕ) : ℤ) + n - 2 ^ 32 := by
      rw [← aInt_emod, ← Int.sub_emod_right, aInt_emod, aInt_eq ⟨by omega, by omega⟩]
    omega
  have hdir := direccionFisica_marco off hf hoff.le
  have hlimites : ¬ FueraDeLimites cfg ((f * cfg.tamPagina + off : ℕ) : ℤ) n := by
    rintro (h | h)
    · exact absurd h (not_lt.mpr (Int.natCast_nonneg _))
    · exact absurd h (not_lt.mpr (hvuelta.le.trans (Int.natCast_nonneg _)))
  have hcopia : ¬ CopiaValida cfg ((f * cfg.tamPagina + off : ℕ) : ℤ) n := by
    clear hlim hvuelta
    rintro ⟨-, -, h⟩
    omega
  have hlargo : (datos.take n).length = n := List.length_take_of_le hn
  have hpaquete : ¬ ((n : ℤ) < 0 ∨ ((datos.take n).length : ℤ) < n) := by omega
  simp only [escribirBytesEnMemoriaPrincipal, atenderPostHandshake, Int.toNat_natCast,
    if_neg hpaquete, manejarEscrituraDireccionFisica, hdir, escribirMemoriaFisica, if_neg hlimites,
    if_neg hcopia, Option.bind_eq_bind, Option.bind_none]

variable (cpu pid) in
/-- A direct write is the copy into the page of the frame. -/
theorem escribirBytes_copia (hn : (m.diccionarioProcesos.map Proceso.pid).Nodup)
    (hmem : m.almacen.memoriaUsuario.length = cfg.tamMemoria) {f : ℕ} {offset tamanio : ℤ}
    {datos : List Byte} (hf : f < cfg.cantidadMarcos) (hoff : 0 ≤ offset ∧ offset < cfg.tamPagina)
    (htam : 0 ≤ tamanio ∧ tamanio < 2 ^ 31) (hdatos : tamanio ≤ datos.length)
    (hlim : aInt (offset + tamanio) ≤ cfg.tamPagina) :
    (copiarAPagina cfg (vista m f) offset tamanio datos = none ∧
      escribirBytesEnMemoriaPrincipal cpu m f offset tamanio datos pid = none) ∨
    ∃ contenido m', copiarAPagina cfg (vista m f) offset tamanio datos = some contenido ∧
      escribirBytesEnMemoriaPrincipal cpu m f offset tamanio datos pid = some m' ∧
      ConMarcos m m' (Function.update (vista m) f contenido) := by
  obtain ⟨off, rfl⟩ := Int.eq_ofNat_of_zero_le hoff.1
  obtain ⟨n, rfl⟩ := Int.eq_ofNat_of_zero_le htam.1
  by_cases hcabe : off + n ≤ cfg.tamPagina
  · obtain ⟨m', hesc, hcon⟩ :=
      escribirBytes_marco cpu pid hn hmem hf hcabe (Int.ofNat_le.mp hdatos)
    have hen : EnPagina cfg off n := ⟨by omega, by omega, by omega⟩
    right
    refine ⟨_, m', if_pos hen, hesc, ?_⟩
    rw [Int.toNat_natCast, Int.toNat_natCast]
    exact hcon
  · have hen : ¬ EnPagina cfg off n := by
      rintro ⟨-, -, h⟩
      omega
    left
    refine ⟨if_neg hen, ?_⟩
    apply escribirBytes_desborde hf (by omega) (by omega) (by omega) (by omega)
    rw [Int.natCast_add]
    exact hlim

end Pedidos

end CpuMemoria
