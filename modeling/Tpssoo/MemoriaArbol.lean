import Tpssoo.MemoriaAdmision

/-!
# The allocator and the translator

The page table of a new process, as `asignar_paginas_recursivo` fills it and as the descent of
`manejar_traduccion_tabla` reads it. The frames that the allocator takes are written down in
order by a copy of it that does nothing else.
-/
namespace MemoriaArbol

open EnterosC Bucles Protocolo ArbolRadix MapaDeBits MemoriaEstado MemoriaSwap MemoriaPaginacion
  MemoriaTraduccion MemoriaPeticiones MemoriaFilas MemoriaInvariante MemoriaAdmision

variable {cfg : Config}

/-- `asignar_paginas_recursivo` on an entry, with the frames assigned so far. -/
def anotarEntrada (r : Asignacion × List ℤ) (e : EntradaTabla) :
    Bool × (Asignacion × List ℤ) × EntradaTabla :=
  let s := asignarEntrada r.1 e
  (s.1, (s.2.1, if s.2.2 = e then r.2 else r.2 ++ [s.2.2.numeroMarco]), s.2.2)

def asignarAnotando (cfg : Config) (s : Asignacion) (t : Tabla EntradaTabla cfg.nivelesInferiores) :
    Bool × (Asignacion × List ℤ) × Tabla EntradaTabla cfg.nivelesInferiores :=
  poblar cfg.entradasPorTabla entradaVacia (fun r => 0 < r.1.restantes) anotarEntrada
    cfg.nivelesInferiores (s, []) t

/-- The annotations change nothing. -/
theorem asignarAnotando_eq (s : Asignacion) (t : Tabla EntradaTabla cfg.nivelesInferiores) :
    ((asignarAnotando cfg s t).1, (asignarAnotando cfg s t).2.1.1, (asignarAnotando cfg s t).2.2) =
      asignarPaginasRecursivo cfg s t := by
  rw [asignarAnotando, asignarPaginasRecursivo]
  apply poblar_vista (fun s : Asignacion => decide (0 < s.restantes)) Prod.fst
  · exact fun r => rfl
  · exact fun r e => rfl

/-- The table `tabla` of a new process of `n` pages, the frames in the order in which they were
assigned, and what the translator reads. -/
structure MismoArbol (cfg : Config) (bits : List Bool) (n : ℕ) (marcos : List ℤ) (bits' : List Bool)
    (tabla : Tabla EntradaTabla cfg.nivelesInferiores) : Prop where
  asigna : asignarPaginasRecursivo cfg ⟨bits, n⟩ (crearTablaPagina cfg) = (true, ⟨bits', 0⟩, tabla)
  anota : asignarAnotando cfg ⟨bits, n⟩ (crearTablaPagina cfg) = (true, (⟨bits', 0⟩, marcos), tabla)
  creado : ∀ pid tam inst, paginasRequeridas cfg tam = n → 0 < n →
    crearProceso cfg bits pid tam inst = (⟨pid, some tabla, inst, tam, n, .cero⟩, bits')
  cantidad : marcos.length = n
  distintos : marcos.Nodup
  libres : ∀ i ∈ marcos, 0 ≤ i ∧ i < cfg.cantidadMarcos ∧ ¬Ocupado bits i
  ocupados : ∀ i, Ocupado bits' i ↔ i ∈ marcos ∨ Ocupado bits i
  indices : ∀ p nivel, 1 ≤ nivel → nivel ≤ cfg.cantidadNiveles →
    obtenerIndiceDePagina cfg p nivel =
      some (p / cfg.entradasPorTabla ^ (cfg.cantidadNiveles - nivel) % cfg.entradasPorTabla)
  asignadas : ∀ p < n, ∃ marco, marcos[p]? = some marco ∧
    recorrerNiveles cfg p cfg.nivelesInferiores (some tabla) = some (some (entradaEn marco))
  restantes : ∀ p, n ≤ p → p < cfg.paginasDireccionables →
    ∃ r, recorrerNiveles cfg p cfg.nivelesInferiores (some tabla) = some r ∧
      ∀ e, r = some e → e.presente = false
  traduce : ∀ (m : Memoria cfg) (proceso : Proceso cfg) (pid : ℤ),
    buscarProceso m.diccionarioProcesos pid = some proceso → proceso.tablaNivel1 = some tabla →
    paginasRequeridas cfg proceso.tamProceso = n → ∀ p desp, p < n → desp < cfg.tamPagina →
    ∃ marco m', marcos[p]? = some marco ∧
      manejarTraduccionTabla m pid ((p * cfg.tamPagina + desp : ℕ) : ℤ) =
        some ([.paquete (paqueteTraduccion .traduccionOk pid ((p * cfg.tamPagina + desp : ℕ) : ℤ)
          marco)], m')

section Asignador

variable {bits : List Bool} {k n : ℕ} {l : List ℤ}

/-- Over blank entries the annotations are the first free frames, one after the other. -/
theorem anotar_vacias (hk : k ≤ bits.count false) :
    (bucleMientras (fun r : Asignacion × List ℤ => decide (0 < r.1.restantes)) anotarEntrada
      (⟨bits, k⟩, l) (List.replicate n entradaVacia)).2.1.2 =
        l ++ (tomarMarcos (min k n) bits).1 := by
  induction n generalizing k bits l with
  | zero => rw [Nat.min_zero]; exact (List.append_nil l).symm
  | succ n ih =>
    cases k with
    | zero =>
      rw [bucleMientras_parado rfl, Nat.zero_min]
      exact (List.append_nil l).symm
    | succ k =>
      have hlibre : buscarMarcoLibre bits ≠ -1 := by
        intro hlleno
        have hcero := buscarMarcoLibre_eq_neg_iff.mp hlleno
        omega
      have hcuenta := count_ocuparMarco hlibre
      have hpaso : anotarEntrada (⟨bits, k + 1⟩, l) entradaVacia =
          (true, (⟨ocuparMarco bits (buscarMarcoLibre bits), k⟩, l ++ [buscarMarcoLibre bits]),
            entradaEn (buscarMarcoLibre bits)) := by
        simp [anotarEntrada, asignarEntrada, hlibre, entradaVacia, entradaEn]
      have hmin : min (k + 1) (n + 1) = min k n + 1 := by omega
      rw [List.replicate_succ, bucleMientras, hpaso, hmin]
      dsimp only
      rw [decide_eq_true (Nat.succ_pos k), if_pos rfl, if_pos rfl, ih (by omega), tomarMarcos,
        List.append_assoc]
      rfl

end Asignador

section Recorrido

variable {bits : List Bool} {n p : ℕ} {t : Tabla EntradaTabla cfg.nivelesInferiores}
  {e : EntradaTabla}

/-- The shifts are defined while the page numbers are `int`s. -/
theorem desplazamientos_definidos (h : cfg.paginasDireccionables ≤ 2 ^ 31) :
    cfg.nivelesInferiores * cfg.bitsPorNivel < 32 := by
  have hpow : 2 ^ (cfg.bitsPorNivel * cfg.cantidadNiveles) ≤ 2 ^ 31 := by
    rw [pow_mul, ← cfg.entradas_eq]
    exact h
  have hle : cfg.bitsPorNivel * cfg.cantidadNiveles ≤ 31 :=
    (Nat.pow_le_pow_iff_right Nat.one_lt_two).mp hpow
  have hmenor : cfg.nivelesInferiores * cfg.bitsPorNivel ≤ cfg.bitsPorNivel *
      cfg.cantidadNiveles := by
    rw [Nat.mul_comm]
    exact Nat.mul_le_mul_left _ (Nat.sub_le _ _)
  omega

/-- The path of a page ends in the entry of the flat row, or in a missing table that stands for
a blank one. -/
theorem camino_eq (hbits : cfg.nivelesInferiores * cfg.bitsPorNivel < 32)
    (hforma : Forma cfg.entradasPorTabla cfg.nivelesInferiores t)
    (hp : p < cfg.paginasDireccionables)
    (he : (aplanar cfg.entradasPorTabla entradaVacia cfg.nivelesInferiores t)[p]? = some e) :
    ∃ r, recorrerNiveles cfg p cfg.nivelesInferiores (some t) = some r ∧
      r.getD entradaVacia = e := by
  have hn : cfg.nivelesInferiores < cfg.cantidadNiveles := by
    have hsuma := cfg.niveles_eq
    omega
  have hp' : p < cfg.entradasPorTabla ^ (cfg.nivelesInferiores + 1) := by
    rw [cfg.niveles_eq]
    exact hp
  have hlee := getD_buscar entradaVacia (digito cfg p) hforma hp' fun k _ => rfl
  refine ⟨_, recorrerNiveles_eq hn hbits (some t), ?_⟩
  rw [he] at hlee
  exact (Option.some.inj hlee).symm

theorem camino_presente (hbits : cfg.nivelesInferiores * cfg.bitsPorNivel < 32)
    (hforma : Forma cfg.entradasPorTabla cfg.nivelesInferiores t)
    (hp : p < cfg.paginasDireccionables)
    (he : (aplanar cfg.entradasPorTabla entradaVacia cfg.nivelesInferiores t)[p]? = some e)
    (hpresente : e.presente = true) :
    recorrerNiveles cfg p cfg.nivelesInferiores (some t) = some (some e) := by
  obtain ⟨r, hr, hd⟩ := camino_eq hbits hforma hp he
  cases r with
  | none =>
    rw [Option.getD_none] at hd
    subst hd
    cases hpresente
  | some e' =>
    rw [Option.getD_some] at hd
    rw [hr, hd]

theorem camino_ausente (hbits : cfg.nivelesInferiores * cfg.bitsPorNivel < 32)
    (hforma : Forma cfg.entradasPorTabla cfg.nivelesInferiores t)
    (hp : p < cfg.paginasDireccionables)
    (he : (aplanar cfg.entradasPorTabla entradaVacia cfg.nivelesInferiores t)[p]? =
      some entradaVacia) :
    ∃ r, recorrerNiveles cfg p cfg.nivelesInferiores (some t) = some r ∧
      ∀ e, r = some e → e.presente = false := by
  obtain ⟨r, hr, hd⟩ := camino_eq hbits hforma hp he
  refine ⟨r, hr, ?_⟩
  rintro e rfl
  rw [Option.getD_some] at hd
  rw [hd]
  rfl

end Recorrido

section Creacion

variable {bits : List Bool} {n p : ℕ}

theorem pagina_de_direccion {desp : ℕ} (hdesp : desp < cfg.tamPagina) :
    (((p * cfg.tamPagina + desp : ℕ) : ℤ)).tdiv cfg.tamPagina = p := by
  have hdiv : (p * cfg.tamPagina + desp) / cfg.tamPagina = p := by
    rw [Nat.add_comm, Nat.add_mul_div_right _ _ cfg.tamPagina_pos, Nat.div_eq_of_lt hdesp,
      Nat.zero_add]
  rw [Int.tdiv_eq_ediv_of_nonneg (Int.natCast_nonneg _), ← Int.natCast_ediv, hdiv]

/-- An address of an assigned page is within the bounds of the process. -/
theorem acepta_pagina {proceso : Proceso cfg} {desp : ℕ} (hn : n ≤ cfg.cantidadMarcos)
    (hpaginas : paginasRequeridas cfg proceso.tamProceso = n) (hp : p < n)
    (hdesp : desp < cfg.tamPagina) : Acepta proceso ((p * cfg.tamPagina + desp : ℕ) : ℤ) := by
  have htam : 0 < proceso.tamProceso := by
    rw [← paginas_pos_iff cfg, hpaginas]
    omega
  have htotal := totalPaginas_eq htam (by rw [hpaginas]; exact_mod_cast hn)
  refine ⟨?_, Int.natCast_nonneg _⟩
  rw [pagina_de_direccion hdesp, htotal, hpaginas]
  exact_mod_cast hp

/-- The table that the allocator leaves, as its row of entries. -/
theorem tabla_asignada (hn : n ≤ cfg.paginasDireccionables) (hlibres : n ≤ bits.count false) :
    ∃ t, asignarPaginasRecursivo cfg ⟨bits, n⟩ (crearTablaPagina cfg) =
        (true, ⟨(tomarMarcos n bits).2, 0⟩, t) ∧
      Forma cfg.entradasPorTabla cfg.nivelesInferiores t ∧
      aplanar cfg.entradasPorTabla entradaVacia cfg.nivelesInferiores t =
        (tomarMarcos n bits).1.map entradaEn ++
          List.replicate (cfg.paginasDireccionables - n) entradaVacia := by
  have hfila := asignarPaginas_eq cfg ⟨bits, n⟩
  rw [asignarFila_eq hlibres, Nat.min_eq_left hn, Nat.sub_self, Prod.mk.injEq,
    Prod.mk.injEq] at hfila
  obtain ⟨hok, hestado, htabla⟩ := hfila
  refine ⟨(asignarPaginasRecursivo cfg ⟨bits, n⟩ (crearTablaPagina cfg)).2.2, ?_, ?_, htabla⟩
  · exact Prod.ext hok (Prod.ext hestado rfl)
  · exact forma_poblar (forma_crear _)

theorem anotados (hn : n ≤ cfg.paginasDireccionables) (hlibres : n ≤ bits.count false) :
    (asignarAnotando cfg ⟨bits, n⟩ (crearTablaPagina cfg)).2.1.2 = (tomarMarcos n bits).1 := by
  have hfila := poblar_crear cfg.entradasPorTabla entradaVacia
    (fun r : Asignacion × List ℤ => decide (0 < r.1.restantes)) anotarEntrada cfg.nivelesInferiores
    (⟨bits, n⟩, [])
  rw [cfg.niveles_eq] at hfila
  have hmarcos := anotar_vacias (n := cfg.paginasDireccionables) (l := []) hlibres
  rw [Nat.min_eq_left hn, List.nil_append] at hmarcos
  rw [← hmarcos, Config.paginasDireccionables, ← hfila]
  rfl

end Creacion

/-- The allocator and the translator walk the same tree. -/
theorem asignador_y_traductor (cfg : Config) (hdir : cfg.paginasDireccionables ≤ 2 ^ 31)
    (bits : List Bool) (hbits : bits.length = cfg.cantidadMarcos) (n : ℕ)
    (hn : n ≤ cfg.paginasDireccionables) (hlibres : n ≤ bits.count false) :
    ∃ marcos bits' tabla, MismoArbol cfg bits n marcos bits' tabla := by
  have hdesplaza := desplazamientos_definidos hdir
  have hmarcos : n ≤ cfg.cantidadMarcos := hbits ▸ hlibres.trans List.count_le_length
  obtain ⟨hdistintos, hrango, hocupados⟩ := tomarMarcos_libres hlibres
  obtain ⟨t, hasigna, hforma, hfila⟩ := tabla_asignada hn hlibres
  have hlargo : (tomarMarcos n bits).1.length = n := length_tomarMarcos
  have hasignada : ∀ p < n, ∃ marco, (tomarMarcos n bits).1[p]? = some marco ∧
      recorrerNiveles cfg p cfg.nivelesInferiores (some t) = some (some (entradaEn marco)) := by
    intro p hp
    have hget := List.getElem?_eq_getElem (hlargo.symm ▸ hp : p < (tomarMarcos n bits).1.length)
    refine ⟨_, hget, camino_presente hdesplaza hforma (hp.trans_le hn) ?_ rfl⟩
    rw [hfila, List.getElem?_append_left (by rw [List.length_map, hlargo]; exact hp),
      List.getElem?_map, hget]
    rfl
  refine ⟨(tomarMarcos n bits).1, (tomarMarcos n bits).2, t, ?_⟩
  constructor
  · exact hasigna
  · have hvista := @asignarAnotando_eq cfg ⟨bits, n⟩ (crearTablaPagina cfg)
    rw [hasigna, Prod.mk.injEq, Prod.mk.injEq] at hvista
    exact Prod.ext hvista.1 (Prod.ext (Prod.ext hvista.2.1 (anotados hn hlibres)) hvista.2.2)
  · intro pid tam inst hpaginas hpos
    rw [crearProceso, hpaginas]
    dsimp only
    rw [if_pos (by exact_mod_cast hpos), Int.toNat_natCast, hasigna]
  · exact hlargo
  · exact hdistintos
  · intro i hi
    obtain ⟨h₀, h₁, hlibre⟩ := hrango i hi
    rw [hbits] at h₁
    exact ⟨h₀, h₁, hlibre⟩
  · exact hocupados
  · intro p nivel hnivel hnivel'
    have hk : cfg.cantidadNiveles - nivel < cfg.cantidadNiveles := by
      have hpos := cfg.cantidadNiveles_pos
      omega
    have hle : (cfg.cantidadNiveles - nivel) * cfg.bitsPorNivel ≤
        cfg.nivelesInferiores * cfg.bitsPorNivel := by
      refine Nat.mul_le_mul_right _ ?_
      rw [Config.nivelesInferiores]
      omega
    have hindice := indice_eq p hk (hle.trans_lt hdesplaza)
    rw [Nat.sub_sub_self hnivel'] at hindice
    exact hindice
  · exact hasignada
  · intro p hp hp'
    refine camino_ausente hdesplaza hforma hp' ?_
    rw [hfila, List.getElem?_append_right (by rw [List.length_map, hlargo]; exact hp),
      List.length_map, hlargo, List.getElem?_replicate, if_pos (by omega)]
  · intro m proceso pid hbusca htabla hpaginas p desp hp hdesp
    obtain ⟨marco, hmarco, hcamino⟩ := hasignada p hp
    have hacepta := acepta_pagina hmarcos hpaginas hp hdesp
    have htraduce : traducir proceso ((p * cfg.tamPagina + desp : ℕ) : ℤ) =
        some (.traduccionOk marco) := by
      rw [traducir, if_pos hacepta, pagina_de_direccion hdesp, Int.toNat_natCast, htabla, hcamino]
      rfl
    refine ⟨marco, (responderTraduccion m proceso pid ((p * cfg.tamPagina + desp : ℕ) : ℤ)
      (.traduccionOk marco)).2, hmarco, ?_⟩
    rw [manejarTraduccionTabla, hbusca]
    dsimp only
    rw [htraduce]
    rfl

def configDosNiveles : Config := crearConfig [] 128 8 2 4 (by decide)

def bitmapUsado : List Bool := [true, false, true] ++ List.replicate 13 false

/-- Two levels of four entries, five pages, and the first and third frames taken. -/
theorem asignador_y_traductor_ejemplo : ∃ marcos bits' tabla,
    MismoArbol configDosNiveles bitmapUsado 5 marcos bits' tabla :=
  asignador_y_traductor configDosNiveles (by decide) bitmapUsado (by decide) 5 (by decide)
    (by decide)

end MemoriaArbol
