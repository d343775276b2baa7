import Tpssoo.MemoriaPrivada

/-!
# The dump of a process

As long as no operation on the swap file fails, the slots in use lie below the first one
whose offset overflows, so every page keeps its content and the dump is the concatenation
of the logical pages in order, wherever each one is.
-/
namespace MemoriaVolcado

open EnterosC Bucles ArbolRadix RangosBytes MapaDeBits MemoriaEstado MemoriaSwap MemoriaPaginacion
  MemoriaTraduccion MemoriaPeticiones MemoriaFilas MemoriaEfectos MemoriaInvariante MemoriaMarcos
  MemoriaContenido MemoriaPrivada Protocolo

variable {cfg : Config} {env : Entorno} {m m' : Memoria cfg} {pet : Peticion} {pid : ℤ}
  {p : Proceso cfg} {swap : ℕ → AccesoSwap} {r : Recorrido} {row : List EntradaTabla}

/-- An `fseek` to a slot is refused when the offset overflowed to a negative value. -/
def SeekBien (cfg : Config) (slot : ℕ) : Prop := 0 ≤ aInt (slot * cfg.tamPagina)

instance (slot : ℕ) : Decidable (SeekBien cfg slot) := inferInstanceAs (Decidable (_ ≤ _))

/-- No operation on the swap file fails: each `fopen` and each transfer of the request
completes, and no `fseek` to the slot of a page going out is refused. -/
def OperacionesBien (m : Memoria cfg) (env : Entorno) (pet : Peticion) (_ : Memoria cfg) : Prop :=
  env.SinFallas cfg ∧ ∀ pid p, pet = .suspenderProceso pid →
    buscarProceso m.diccionarioProcesos pid = some p →
    ∀ slot ∈ tomarSlots env.swap 0 (p.entradas.countP EntradaTabla.presente) m.almacen.bitmapSwap,
      SeekBien cfg slot

section Offsets

/-- Slots below the first one whose offset does not fit in an int. -/
def slotsDireccionables (cfg : Config) : ℕ := 2 ^ 31 / cfg.tamPagina

theorem slots_mul (cfg : Config) : slotsDireccionables cfg * cfg.tamPagina = 2 ^ 31 := by
  apply Nat.div_mul_cancel
  exact cfg.pagina_divide

theorem slotCabe_iff {slot : ℤ} : SlotCabe cfg slot ↔ slot < slotsDireccionables cfg := by
  have hpos : (0 : ℤ) < cfg.tamPagina := Int.natCast_pos.mpr cfg.tamPagina_pos
  have hmul : (slotsDireccionables cfg : ℤ) * cfg.tamPagina = 2 ^ 31 := by
    exact_mod_cast slots_mul cfg
  rw [SlotCabe, ← hmul]
  exact Int.mul_lt_mul_right hpos

/-- The first slot out of range is refused by `fseek`. -/
theorem seek_rechazado (cfg : Config) : ¬ SeekBien cfg (slotsDireccionables cfg) := by
  have hmul : (slotsDireccionables cfg : ℤ) * cfg.tamPagina = 2 ^ 31 := by
    exact_mod_cast slots_mul cfg
  rw [SeekBien, hmul]
  decide

theorem slots_multiplo (cfg : Config) :
    8 ∣ slotsDireccionables cfg ∨ slotsDireccionables cfg < 8 := by
  obtain ⟨b, hb, htam⟩ := cfg.pagina_potencia_menor
  have hslots : slotsDireccionables cfg = 2 ^ (31 - b) := by
    rw [slotsDireccionables, htam]
    exact Nat.pow_div (Nat.le_of_lt hb) (by decide)
  rw [hslots]
  by_cases h : 3 ≤ 31 - b
  · exact Or.inl (Nat.pow_dvd_pow 2 h)
  · right
    have hpot : 2 ^ (31 - b) < 2 ^ 3 := Nat.pow_lt_pow_right (by decide) (by omega)
    exact hpot

/-- Every slot marked in the bitmap is in range. The bitmap holds whole bytes, and no more
of them than those slots fill. -/
structure SlotsBajos (cfg : Config) (bits : List Bool) : Prop where
  bytes : 8 ∣ bits.length
  alguno : 8 ≤ bits.length
  largo : bits.length ≤ max 8 (slotsDireccionables cfg)
  ocupados : ∀ i, Ocupado bits i → SlotCabe cfg i

theorem ocupado_antes {bits : List Bool} {j : ℕ} (h : j < buscarSlotLibreSwap bits) :
    Ocupado bits j := by
  have hlt : j < bits.length := Nat.lt_of_lt_of_le h (primerLibre_le bits)
  refine ⟨Int.natCast_nonneg j, ?_⟩
  rw [Int.toNat_natCast, List.getElem?_eq_getElem hlt]
  have hne := List.not_of_lt_findIdx h
  simpa using hne

theorem slot_bajo {bits : List Bool} (h : SlotsBajos cfg bits)
    (hseek : SeekBien cfg (buscarSlotLibreSwap bits)) :
    buscarSlotLibreSwap bits < slotsDireccionables cfg := by
  rcases Nat.lt_trichotomy (buscarSlotLibreSwap bits) (slotsDireccionables cfg)
    with hlt | heq | hgt
  · exact hlt
  · rw [heq] at hseek
    exact absurd hseek (seek_rechazado cfg)
  · -- the first slot out of range would be taken already
    have hcabe := slotCabe_iff.mp (h.ocupados _ (ocupado_antes hgt))
    exact absurd hcabe (Int.lt_irrefl _)

theorem slotsBajos_ocupar {bits : List Bool} (acc : AccesoSwap) (h : SlotsBajos cfg bits)
    (hseek : SeekBien cfg (buscarSlotLibreSwap bits)) :
    SlotsBajos cfg (ocupar (crecerBitmap acc bits (buscarSlotLibreSwap bits))
      (buscarSlotLibreSwap bits)) := by
  have hslot := slot_bajo h hseek
  have hdentro := slot_en_bitmap_crecido acc bits
  have hcrecido : SlotsBajos cfg (crecerBitmap acc bits (buscarSlotLibreSwap bits)) := by
    by_cases hlleno : bits.length ≤ buscarSlotLibreSwap bits
    · have heq : buscarSlotLibreSwap bits = bits.length :=
        Nat.le_antisymm (primerLibre_le bits) hlleno
      obtain ⟨hbytes, halguno, -, hocupados⟩ := h
      have hcabe : bits.length + 8 ≤ slotsDireccionables cfg := by
        rcases slots_multiplo cfg with hmul | hmenos <;> omega
      have hlargo : (crecerBitmap acc bits (buscarSlotLibreSwap bits)).length =
          bits.length + 8 := by
        rw [crecerBitmap, if_pos hlleno, heq]
        simp only [List.length_append, List.length_map, List.length_range]
        omega
      refine ⟨by omega, by omega, by omega, ?_⟩
      intro i hi
      have hrango := ocupado_rango hi
      rw [slotCabe_iff]
      omega
    · rw [crecerBitmap, if_neg hlleno]
      exact h
  obtain ⟨hbytes, halguno, hlargo, hocupados⟩ := hcrecido
  refine ⟨?_, ?_, ?_, ?_⟩
  · rwa [length_ocupar]
  · rwa [length_ocupar]
  · rwa [length_ocupar]
  · intro i hi
    rcases (ocupado_ocupar (by omega)).mp hi with rfl | hi
    · rw [slotCabe_iff]
      omega
    · exact hocupados i hi

theorem slotsBajos_liberar {bits : List Bool} (slot : ℤ) (h : SlotsBajos cfg bits) :
    SlotsBajos cfg (liberarSlotSwap bits slot) := by
  obtain ⟨hbytes, halguno, hlargo, hocupados⟩ := h
  refine ⟨?_, ?_, ?_, ?_⟩
  · rwa [length_liberar]
  · rwa [length_liberar]
  · rwa [length_liberar]
  · intro i hi
    exact hocupados i (ocupado_liberar.mp hi).1

theorem slotsBajos_suspenderTodo (h : SlotsBajos cfg r.almacen.bitmapSwap)
    (hacc : ∀ n, (swap n).Escribe cfg)
    (hseek : ∀ slot ∈ tomarSlots swap r.accesos (row.countP EntradaTabla.presente)
      r.almacen.bitmapSwap, SeekBien cfg slot) :
    SlotsBajos cfg (suspenderTodo cfg swap r row).1.almacen.bitmapSwap := by
  induction row generalizing r with
  | nil => exact h
  | cons e row ih =>
    rw [suspenderTodo, bucle]
    cases hp : e.presente with
    | false =>
      have hcuenta : ¬ e.presente = true := by simp [hp]
      rw [List.countP_cons_of_neg hcuenta] at hseek
      rw [suspenderEntrada_ausente hp]
      exact ih h hseek
    | true =>
      rw [List.countP_cons_of_pos hp] at hseek
      obtain ⟨-, haccesos, -, -, hbits⟩ := suspenderEntrada_escribe hp (hacc r.accesos)
      apply ih
      · rw [hbits]
        exact slotsBajos_ocupar _ h (hseek _ List.mem_cons_self)
      · intro slot hslot
        rw [haccesos, hbits] at hslot
        exact hseek slot (List.mem_cons_of_mem _ hslot)

theorem slotsBajos_desuspenderTodo (h : SlotsBajos cfg r.almacen.bitmapSwap) :
    SlotsBajos cfg (desuspenderTodo cfg swap r row).1.almacen.bitmapSwap := by
  induction row generalizing r with
  | nil => exact h
  | cons e row ih =>
    rw [desuspenderTodo, bucle]
    apply ih
    by_cases hmueve : e.enSwap = true ∧ buscarMarcoLibre r.almacen.bitmapMarcos ≠ -1
    · simp only [desuspenderPaso, desuspenderEntrada, hmueve.1, if_true, hmueve.2, if_false]
      exact slotsBajos_liberar _ h
    · rw [desuspenderPaso_quieto hmueve]
      exact h

theorem slotsBajos_liberarTablas {a : Almacen} (h : SlotsBajos cfg a.bitmapSwap)
    (p : Proceso cfg) :
    SlotsBajos cfg (liberarTablasProceso cfg a p.tablaNivel1).bitmapSwap := by
  rw [liberarTablas_eq]
  generalize p.entradas = row
  induction row generalizing a with
  | nil => exact h
  | cons e row ih =>
    apply ih
    unfold liberarEntrada
    split
    · exact h
    · split
      · exact slotsBajos_liberar _ h
      · exact h

theorem slotsBajos_efecto (h : SlotsBajos cfg m.almacen.bitmapSwap) (hef : Efecto env m pet m')
    (hbien : OperacionesBien m env pet m') : SlotsBajos cfg m'.almacen.bitmapSwap := by
  cases hef with
  | quieto ha hp => rwa [ha]
  | escritura hcopia hlargo ha hp => rwa [ha]
  | alta inst hcabe => exact h
  | baja hp => exact slotsBajos_liberarTablas h _
  | suspension hp =>
    simp only [conPaginas, conProceso, conAlmacen, (suspenderPaginas_eq env m.almacen _).1]
    apply slotsBajos_suspenderTodo h
    · intro n
      obtain ⟨habre, hbytes⟩ := hbien.1 n
      exact ⟨hbytes, Or.inl habre⟩
    · exact hbien.2 _ _ rfl hp
  | desuspension hp hcabe =>
    simp only [conPaginas, conProceso, conAlmacen, (desuspenderPaginas_eq env m.almacen _).1]
    exact slotsBajos_desuspenderTodo h

/-- Slots in use are marked, so their offsets fit. -/
theorem offsets_de_bajos (hinv : Invariante m) (h : SlotsBajos cfg m.almacen.bitmapSwap) :
    ∀ e ∈ todasEntradas m.diccionarioProcesos, SlotCabe cfg e.posicionSwap := by
  intro e he
  by_cases hs : e.posicionSwap = -1
  · rw [hs, slotCabe_iff]
    omega
  · exact h.ocupados _ (hinv.entradas.duenosSlots.2 _ (mem_slots.mpr ⟨e, he, hs, rfl⟩))

theorem slotsBajos_inicial (cfg : Config) : SlotsBajos cfg (inicial cfg).almacen.bitmapSwap := by
  refine ⟨⟨1, rfl⟩, Nat.le_refl 8, Nat.le_max_left _ _, ?_⟩
  intro i hi
  exact absurd ((propiedad_vacia 8).2 i |>.mpr hi) (Multiset.notMem_zero i)

/-- In these runs no offset overflows: they are among those of the private memory. -/
theorem sinErrores_de_bien (h : AlcanzableCon OperacionesBien m) :
    AlcanzableCon SinErrores m ∧ SlotsBajos cfg m.almacen.bitmapSwap := by
  induction h with
  | inicial => exact ⟨.inicial, slotsBajos_inicial cfg⟩
  | paso hm hp ih =>
    obtain ⟨env, pet, envios, hfresco, hat, hbien⟩ := hp
    obtain ⟨halc, hbajos⟩ := ih
    have hinv := invariante_de_alcanzable hm
    have hef := efecto_de_atender hinv.pids hat
    have hbajos' := slotsBajos_efecto hbajos hef hbien
    have hinv' := invariante_efecto hinv hfresco hef
    refine ⟨.paso halc ⟨env, pet, envios, hfresco, hat, hbien.1, ?_⟩, hbajos'⟩
    exact offsets_de_bajos hinv' hbajos'

end Offsets

section Prefijo

/-- The assigned entries of a row come first. -/
def AsignadasPrimero (row : List EntradaTabla) : Prop :=
  ∃ n k, row.map EntradaTabla.asignada = List.replicate n true ++ List.replicate k false

theorem bucle_map {σ α β : Type*} {f : σ → α → σ × α} {g : α → β}
    (hf : ∀ s a, g (f s a).2 = g a) (s : σ) (xs : List α) :
    (bucle f s xs).2.map g = xs.map g := by
  induction xs generalizing s with
  | nil => rfl
  | cons x xs ih =>
    rw [bucle, List.map_cons, List.map_cons, hf]
    exact congrArg _ (ih _)

theorem asignada_suspenderEntrada (cfg : Config) (swap : ℕ → AccesoSwap) (r : Recorrido)
    (e : EntradaTabla) : (suspenderEntrada cfg swap r e).2.asignada = e.asignada := by
  by_cases hp : e.presente = true
  · simp only [suspenderEntrada, hp, if_true]
    split
    · rfl
    · rename_i hneg
      simp [EntradaTabla.asignada, hp, hneg]
  · simp [suspenderEntrada, hp]

theorem asignada_desuspenderPaso (cfg : Config) (swap : ℕ → AccesoSwap) (r : Recorrido)
    (e : EntradaTabla) : (desuspenderPaso cfg swap r e).2.asignada = e.asignada := by
  by_cases hmueve : e.enSwap = true ∧ buscarMarcoLibre r.almacen.bitmapMarcos ≠ -1
  · obtain ⟨hen, hlibre⟩ := hmueve
    obtain ⟨-, hs⟩ : e.presente = false ∧ e.posicionSwap ≠ -1 := by
      simpa [EntradaTabla.enSwap] using hen
    simp [desuspenderPaso, desuspenderEntrada, hen, hlibre, EntradaTabla.asignada, hs]
  · rw [desuspenderPaso_quieto hmueve]

/-- Whatever the swap file does, no request assigns a page beyond an unassigned one. -/
theorem asignadas_efecto
    (h : ∀ p ∈ m.diccionarioProcesos, AsignadasPrimero p.entradas) (hef : Efecto env m pet m') :
    ∀ p ∈ m'.diccionarioProcesos, AsignadasPrimero p.entradas := by
  refine todos_efecto ?_ ?_ ?_ ?_ h hef
  · intro p q hqp hp
    have hent : (soloMetricasSwap p).entradas = (soloMetricasSwap q).entradas :=
      congrArg Proceso.entradas hqp
    have hfila : p.entradas = q.entradas := hent
    exact hfila ▸ hp
  · intro pid tam inst hcabe
    obtain ⟨-, vacias, hfila⟩ := crearProceso_eq pid inst hcabe
    refine ⟨paginasDadas cfg tam, vacias, ?_⟩
    rw [hfila, List.map_append, List.map_map, List.map_replicate]
    congr 1
    have hasignada : EntradaTabla.asignada ∘ entradaEn = fun _ => true := rfl
    rw [hasignada, List.map_const', length_tomarMarcos]
  · intro p _ hp
    rw [AsignadasPrimero, (suspenderPaginas_eq env m.almacen p).2.1, suspenderTodo,
      bucle_map (asignada_suspenderEntrada cfg env.swap)]
    exact hp
  · intro p _ hp
    rw [AsignadasPrimero, (desuspenderPaginas_eq env m.almacen p).2.1, desuspenderTodo,
      bucle_map (asignada_desuspenderPaso cfg env.swap)]
    exact hp

theorem asignadas_de_alcanzable {P : Memoria cfg → Entorno → Peticion → Memoria cfg → Prop}
    (h : AlcanzableCon P m) : ∀ p ∈ m.diccionarioProcesos, AsignadasPrimero p.entradas := by
  induction h with
  | inicial => simp [inicial]
  | paso hm hp ih =>
    obtain ⟨env, pet, envios, hfresco, hat, -⟩ := hp
    have hinv := invariante_de_alcanzable hm
    exact asignadas_efecto ih (efecto_de_atender hinv.pids hat)

theorem contenidoLogico_isSome (a : Almacen) (e : EntradaTabla) :
    (contenidoLogico cfg a e).isSome = e.asignada := by
  unfold contenidoLogico EntradaTabla.asignada
  by_cases hp : e.presente = true
  · simp [hp]
  · by_cases hs : e.posicionSwap = -1 <;> simp [hp, hs]

/-- The pages with a content are those before the number of assigned entries. -/
theorem paginas_primero (hfila : AsignadasPrimero p.entradas)
    (hp : buscarProceso m.diccionarioProcesos pid = some p) (k : ℕ) :
    (paginaLogica m pid k).isSome ↔ k < p.entradas.countP EntradaTabla.asignada := by
  obtain ⟨n, l, hmap⟩ := hfila
  have hcuenta : p.entradas.countP EntradaTabla.asignada = n := by
    have hcount : (p.entradas.map EntradaTabla.asignada).countP id = n := by
      rw [hmap, List.countP_append, List.countP_replicate, List.countP_replicate]
      simp
    rwa [List.countP_map] at hcount
  have hk : (paginaLogica m pid k).isSome =
      (p.entradas.map EntradaTabla.asignada)[k]?.getD false := by
    rw [paginaLogica, hp, Option.bind_some, List.getElem?_map]
    cases p.entradas[k]? with
    | none => rfl
    | some e => exact contenidoLogico_isSome m.almacen e
  rw [hk, hmap, hcuenta, List.getElem?_append, List.length_replicate]
  split
  · rename_i hlt
    simp [hlt]
  · rename_i hge
    rw [List.getElem?_replicate]
    split
    · exact iff_of_false Bool.false_ne_true hge
    · exact iff_of_false Bool.false_ne_true hge

end Prefijo

section Imagen

/-- The logical contents of the first pages of a process, in page order. -/
def imagen (m : Memoria cfg) (pid : ℤ) (n : ℕ) : List Byte :=
  (List.range n).flatMap fun k => (paginaLogica m pid k).getD []

theorem flatMap_primeros {α β : Type*} {f : α → Option (List β)} {xs : List α} {n : ℕ}
    (h : ∀ k, ((xs[k]?).bind f).isSome ↔ k < n) :
    xs.flatMap (fun x => (f x).getD []) =
      (List.range n).flatMap fun k => ((xs[k]?).bind f).getD [] := by
  induction xs generalizing n with
  | nil =>
    cases n with
    | zero => rfl
    | succ n =>
      have hcero := (h 0).mpr (Nat.succ_pos n)
      cases hcero
  | cons x xs ih =>
    cases n with
    | zero =>
      have hx : f x = none := by
        have hno := (h 0).not.mpr (Nat.lt_irrefl 0)
        simpa using hno
      have hcola := ih (n := 0) fun k => by
        have hk := h (k + 1)
        simpa using hk
      rw [List.flatMap_cons, hcola, hx]
      rfl
    | succ n =>
      have hcola := ih (n := n) fun k => by
        have hk := h (k + 1)
        simpa using hk
      rw [List.flatMap_cons, hcola, List.range_succ_eq_map, List.flatMap_cons, List.flatMap_map]
      rfl

theorem length_paginas {m : Memoria cfg} {n : ℕ}
    (h : ∀ k < n, ∀ xs, paginaLogica m pid k = some xs → xs.length = cfg.tamPagina)
    (hsome : ∀ k < n, (paginaLogica m pid k).isSome) :
    (imagen m pid n).length = n * cfg.tamPagina := by
  induction n with
  | zero => simp [imagen]
  | succ n ih =>
    obtain ⟨xs, hxs⟩ := Option.isSome_iff_exists.mp (hsome n (Nat.lt_succ_self n))
    have hmenos := ih (fun k hk => h k (by omega)) fun k hk => hsome k (by omega)
    have hsalto : imagen m pid (n + 1) = imagen m pid n ++ xs := by
      rw [imagen, List.range_succ, List.flatMap_append, imagen]
      simp [hxs]
    rw [hsalto, List.length_append, hmenos, h n (Nat.lt_succ_self n) xs hxs, Nat.succ_mul]

theorem length_contenidoLogico {es : Multiset EntradaTabla} {a : Almacen} {e : EntradaTabla}
    {xs : List Byte} (h : InvContenido cfg a es) (he : e ∈ es)
    (hxs : contenidoLogico cfg a e = some xs) : xs.length = cfg.tamPagina := by
  unfold contenidoLogico at hxs
  split at hxs
  · rename_i hp
    cases hxs
    exact length_contenidoMarco h.base.memoria (marco_rango h.base he hp)
  · split at hxs
    · rename_i hs
      cases hxs
      exact length_leerRango_of_le (h.archivo e he hs)
    · cases hxs

/-- What the walk of the dump does at an entry: it appends the content of the page. -/
theorem dumpearEntrada_eq {es : Multiset EntradaTabla} {a : Almacen} {e : EntradaTabla}
    (hswap : ∀ n, (swap n).Completo cfg) (h : InvContenido cfg a es) (he : e ∈ es)
    (hcabe : SlotCabe cfg e.posicionSwap) (s : List Byte × ℕ) :
    (dumpearEntrada cfg swap a s e).1 = s.1 ++ (contenidoLogico cfg a e).getD [] := by
  unfold dumpearEntrada contenidoLogico
  by_cases hp : e.presente = true
  · rw [if_pos hp, if_pos hp]
    rfl
  · rw [if_neg hp, if_neg hp]
    by_cases hs : e.posicionSwap = -1
    · simp [hs]
    · rw [if_pos hs, if_pos hs]
      obtain ⟨hleido, hlargo⟩ := leerDeSwap_completo (slot_rango h.base he hs).1 (hswap s.2)
        ⟨hcabe, h.archivo e he hs⟩
      rw [hleido]
      have htodo : escribirRango ((List.range cfg.tamPagina).map (swap s.2).bufferPrevio) 0
          (contenidoSlot cfg a.archivoSwap e.posicionSwap) =
          contenidoSlot cfg a.archivoSwap e.posicionSwap := by
        simp [escribirRango, hlargo]
      exact congrArg (s.1 ++ ·) htodo

theorem dumpearFila_eq {es : Multiset EntradaTabla} {a : Almacen}
    (hswap : ∀ n, (swap n).Completo cfg) (h : InvContenido cfg a es)
    (hrow : ∀ e ∈ row, e ∈ es ∧ SlotCabe cfg e.posicionSwap) (s : List Byte × ℕ) :
    (row.foldl (dumpearEntrada cfg swap a) s).1 =
      s.1 ++ row.flatMap fun e => (contenidoLogico cfg a e).getD [] := by
  induction row generalizing s with
  | nil => simp
  | cons e row ih =>
    obtain ⟨he, hcabe⟩ := hrow e List.mem_cons_self
    rw [List.foldl_cons, ih fun x hx => hrow x (List.mem_cons_of_mem e hx),
      dumpearEntrada_eq hswap h he hcabe, List.flatMap_cons, List.append_assoc]

/-- The walk of the dump over the row of the process. -/
theorem dumpearPaginas_eq (cfg : Config) (swap : ℕ → AccesoSwap) (a : Almacen)
    (p : Proceso cfg) :
    dumpearPaginasRecursivo cfg swap a p.tablaNivel1 =
      (p.entradas.foldl (dumpearEntrada cfg swap a) ([], 0)).1 := by
  obtain ⟨pid, tabla, inst, tam, paginas, metricas⟩ := p
  cases tabla with
  | none => rfl
  | some t => exact congrArg Prod.fst (plegar_eq_foldl _ entradaVacia (fun _ => rfl) _ _ _)

/-- The dump is the image of the process, page after page. -/
theorem volcado_eq_imagen (h : InvPrivada m) (hfila : AsignadasPrimero p.entradas)
    (hp : buscarProceso m.diccionarioProcesos pid = some p)
    (hswap : ∀ n, (swap n).Completo cfg) :
    dumpearPaginasRecursivo cfg swap m.almacen p.tablaNivel1 =
      imagen m pid (p.entradas.countP EntradaTabla.asignada) := by
  have hrow : ∀ e ∈ p.entradas, e ∈ (todasEntradas m.diccionarioProcesos : Multiset EntradaTabla) ∧
      SlotCabe cfg e.posicionSwap := by
    intro e he
    have hmem : e ∈ todasEntradas m.diccionarioProcesos :=
      List.mem_flatMap.mpr ⟨p, (buscarProceso_some hp).1, he⟩
    exact ⟨hmem, h.offsets e hmem⟩
  have hpagina : ∀ k, paginaLogica m pid k =
      (p.entradas[k]?).bind (contenidoLogico cfg m.almacen) := by
    intro k
    rw [paginaLogica, hp, Option.bind_some]
  rw [dumpearPaginas_eq, dumpearFila_eq hswap h.contenido hrow, List.nil_append]
  unfold imagen
  simp only [hpagina]
  apply flatMap_primeros
  intro k
  rw [← hpagina]
  exact paginas_primero hfila hp k

theorem length_imagen (h : InvPrivada m) (hfila : AsignadasPrimero p.entradas)
    (hp : buscarProceso m.diccionarioProcesos pid = some p) :
    (imagen m pid (p.entradas.countP EntradaTabla.asignada)).length =
      p.entradas.countP EntradaTabla.asignada * cfg.tamPagina := by
  apply length_paginas
  · intro k _ xs hxs
    rw [paginaLogica, hp, Option.bind_some, Option.bind_eq_some_iff] at hxs
    obtain ⟨e, he, hxs⟩ := hxs
    have hmem : e ∈ todasEntradas m.diccionarioProcesos :=
      List.mem_flatMap.mpr ⟨p, (buscarProceso_some hp).1, List.mem_of_getElem? he⟩
    exact length_contenidoLogico h.contenido hmem hxs
  · intro k hk
    exact (paginas_primero hfila hp k).mpr hk

end Imagen

section Pasos

/-- A request that neither ends the process nor writes over a frame of its own. -/
def Respeta (pid : ℤ) (m : Memoria cfg) : Peticion → Prop
  | .finalizarProceso otro => otro ≠ pid
  | .escribirMemoria _ marco offset tamanio _ => ∀ k e, EntradaDe m pid k e → e.presente = true →
      direccionFisica cfg marco offset + tamanio ≤ e.numeroMarco * cfg.tamPagina ∨
        e.numeroMarco * cfg.tamPagina + cfg.tamPagina ≤ direccionFisica cfg marco offset
  | _ => True

/-- One request with no failed operation that respects the process. -/
abbrev PasoAjeno (pid : ℤ) (m m' : Memoria cfg) : Prop :=
  Paso (fun m env pet m' => OperacionesBien m env pet m' ∧ Respeta pid m pet) m m'

/-- A write over other frames leaves the page. -/
theorem pagina_escritura_ajena (hinv : Invariante m) {pid' marco offset tamanio : ℤ}
    {contenido : List Byte} (hef : Efecto env m (.escribirMemoria pid' marco offset tamanio
      contenido) m')
    (hresp : Respeta pid m (.escribirMemoria pid' marco offset tamanio contenido))
    (hviva : buscarProceso m.diccionarioProcesos pid ≠ none)
    (hviva' : buscarProceso m'.diccionarioProcesos pid ≠ none) (k : ℕ) :
    paginaLogica m' pid k = paginaLogica m pid k := by
  obtain ⟨p, hp⟩ := Option.ne_none_iff_exists'.mp hviva
  obtain ⟨q, hq⟩ := Option.ne_none_iff_exists'.mp hviva'
  cases hef with
  | quieto ha hpr =>
    exact paginaLogica_congr (by rw [ha]) (by rw [ha]) hp hq (entradas_de_procesos hpr hp hq)
  | escritura hcopia hlargo ha hpr =>
    obtain ⟨h₀, h₁, h₂⟩ := hcopia
    rw [paginaLogica, paginaLogica, hp, hq, Option.bind_some, Option.bind_some,
      entradas_de_procesos hpr hp hq, ha]
    cases he : p.entradas[k]? with
    | none => rfl
    | some e =>
      have hmem : e ∈ todasEntradas m.diccionarioProcesos :=
        List.mem_flatMap.mpr ⟨p, (buscarProceso_some hp).1, List.mem_of_getElem? he⟩
      rw [Option.bind_some, Option.bind_some]
      apply contenidoLogico_congr
      · intro hpres
        have hajena := hresp k e ⟨p, hp, he⟩ hpres
        have hmarco := (marco_rango hinv.entradas hmem hpres).1
        have hbase : 0 ≤ e.numeroMarco * cfg.tamPagina :=
          Int.mul_nonneg hmarco (Int.natCast_nonneg _)
        apply leer_escribir_disjunto
        · rw [hinv.entradas.memoria]
          omega
        · rw [List.length_take]
          omega
      · intro _
        rfl

theorem paginas_respetadas (h : InvPrivada m) (hfresco : PidFresco m pet)
    (hef : Efecto env m pet m') (hbien : SinErrores m env pet m') (hresp : Respeta pid m pet)
    (hviva : buscarProceso m.diccionarioProcesos pid ≠ none) :
    buscarProceso m'.diccionarioProcesos pid ≠ none ∧
      ∀ k, paginaLogica m' pid k = paginaLogica m pid k := by
  have hviva' : buscarProceso m'.diccionarioProcesos pid ≠ none := by
    apply viva_efecto hef _ hviva
    rintro rfl
    exact hresp rfl
  refine ⟨hviva', fun k => ?_⟩
  by_cases hesc : ∃ pid' marco offset tamanio contenido,
      pet = .escribirMemoria pid' marco offset tamanio contenido
  · obtain ⟨pid', marco, offset, tamanio, contenido, rfl⟩ := hesc
    exact pagina_escritura_ajena h.base hef hresp hviva hviva' k
  · apply pagina_efecto h hfresco hef hbien _ hviva hviva'
    intro pid' marco offset tamanio contenido heq
    exact hesc ⟨_, _, _, _, _, heq⟩

/-- Along requests that respect a process it lives on, with every page as it was. -/
theorem paginas_de_ajenos (h : AlcanzableCon OperacionesBien m)
    (hviva : buscarProceso m.diccionarioProcesos pid ≠ none)
    (hrun : Relation.ReflTransGen (PasoAjeno pid) m m') :
    AlcanzableCon OperacionesBien m' ∧ buscarProceso m'.diccionarioProcesos pid ≠ none ∧
      ∀ k, paginaLogica m' pid k = paginaLogica m pid k := by
  induction hrun with
  | refl => exact ⟨h, hviva, fun _ => rfl⟩
  | tail _ hpaso ih =>
    obtain ⟨halc, hvive, higual⟩ := ih
    obtain ⟨env, pet, envios, hfresco, hat, hbien, hresp⟩ := hpaso
    obtain ⟨hsin, hbajos⟩ := sinErrores_de_bien halc
    have hinv := privada_de_alcanzable hsin
    have hef := efecto_de_atender hinv.base.pids hat
    have hinv' := invariante_efecto hinv.base hfresco hef
    have hcaben := offsets_de_bajos hinv' (slotsBajos_efecto hbajos hef hbien)
    obtain ⟨hvive', higual'⟩ :=
      paginas_respetadas hinv hfresco hef ⟨hbien.1, hcaben⟩ hresp hvive
    exact ⟨.paso halc ⟨env, pet, envios, hfresco, hat, hbien⟩, hvive',
      fun k => (higual' k).trans (higual k)⟩

end Pasos

/-- The number of assigned pages of a row is the number of pages with a content. -/
theorem asignadas_unicas {n n' : ℕ} (h : ∀ k, k < n ↔ k < n') : n = n' := by
  have hn := h n
  have hn' := h n'
  omega

/-- The reply to a dump that was written. -/
def respuestaDump (pid : ℤ) : List Envio :=
  [.paquete (agregarAPaquete (crearPaquete OpCode.dumpOk.codigo) (bytesInt pid))]

/-- The dump of a live process is its assigned pages in order, whole, wherever they are. Taking
it only adds the dump, and requests that respect the process leave it the same. -/
theorem volcado_es_imagen (h : AlcanzableCon OperacionesBien m)
    (hp : buscarProceso m.diccionarioProcesos pid = some p) :
    ∃ n, p.entradas.countP EntradaTabla.asignada = n ∧
      (∀ k, (paginaLogica m pid k).isSome ↔ k < n) ∧
      (imagen m pid n).length = n * cfg.tamPagina ∧
      (∀ env : Entorno, env.SinFallas cfg →
        dumpearPaginasRecursivo cfg env.swap m.almacen p.tablaNivel1 = imagen m pid n ∧
        (env.dumpAbre = true → atenderPostHandshake env m (.dumpMemory pid) =
          some (respuestaDump pid, { m with volcados := (pid, imagen m pid n) :: m.volcados }))) ∧
      ∀ m', Relation.ReflTransGen (PasoAjeno pid) m m' →
        ∃ p', buscarProceso m'.diccionarioProcesos pid = some p' ∧
          ∀ env : Entorno, env.SinFallas cfg →
            dumpearPaginasRecursivo cfg env.swap m'.almacen p'.tablaNivel1 = imagen m pid n := by
  have hinv := privada_de_alcanzable (sinErrores_de_bien h).1
  have hfila := asignadas_de_alcanzable h p (buscarProceso_some hp).1
  have hviva : buscarProceso m.diccionarioProcesos pid ≠ none := by
    rw [hp]
    exact Option.some_ne_none p
  refine ⟨_, rfl, paginas_primero hfila hp, length_imagen hinv hfila hp, ?_, ?_⟩
  · intro env hswap
    have himagen := volcado_eq_imagen hinv hfila hp hswap
    refine ⟨himagen, fun habre => ?_⟩
    simp only [atenderPostHandshake, manejarSolicitudDump, hp, habre, if_true, himagen]
    rfl
  · intro m' hrun
    obtain ⟨halc', hviva', higual⟩ := paginas_de_ajenos h hviva hrun
    obtain ⟨p', hp'⟩ := Option.ne_none_iff_exists'.mp hviva'
    have hinv' := privada_de_alcanzable (sinErrores_de_bien halc').1
    have hfila' := asignadas_de_alcanzable halc' p' (buscarProceso_some hp').1
    have hcuenta : p'.entradas.countP EntradaTabla.asignada =
        p.entradas.countP EntradaTabla.asignada := by
      apply asignadas_unicas
      intro k
      rw [← paginas_primero hfila' hp' k, higual k]
      exact paginas_primero hfila hp k
    refine ⟨p', hp', fun env hswap => ?_⟩
    rw [volcado_eq_imagen hinv' hfila' hp' hswap, hcuenta]
    simp only [imagen, higual]

section Ejemplo

theorem bien_sin_suspender {m m' : Memoria configEjemplo}
    (hpet : ∀ otro, pet ≠ .suspenderProceso otro) :
    OperacionesBien m entornoEjemplo pet m' :=
  ⟨sin_fallas_ejemplo, fun otro _ heq => absurd heq (hpet otro)⟩

/-- Two pages written across their border and dumped from memory, and from swap after a
suspension. -/
theorem volcado_es_imagen_ejemplo :
    ∃ (m m' : Memoria configEjemplo) (p' : Proceso configEjemplo),
      PasoAjeno 1 m m' ∧ buscarProceso m'.diccionarioProcesos 1 = some p' ∧
      p'.entradas.countP EntradaTabla.enSwap = 2 ∧
      dumpearPaginasRecursivo configEjemplo entornoEjemplo.swap m'.almacen p'.tablaNivel1 =
        [0, 0, 9, 9, 9, 9, 0, 0] := by
  have hrun : ∃ m₀ : Memoria configEjemplo,
      ejecutar (inicial configEjemplo) [(entornoEjemplo, .initProc 1 8 0 [])] = some m₀ ∧
      (ejecutar m₀ [(entornoEjemplo, .escribirMemoria 1 0 2 4 [9, 9, 9, 9])]).any (fun m =>
        imagen m 1 2 = [0, 0, 9, 9, 9, 9, 0, 0] ∧
        (buscarProceso m.diccionarioProcesos 1).any (fun p =>
          p.entradas.countP EntradaTabla.asignada = 2 ∧
          ∀ slot ∈ tomarSlots entornoEjemplo.swap 0 (p.entradas.countP EntradaTabla.presente)
            m.almacen.bitmapSwap, SeekBien configEjemplo slot) ∧
        (atenderPostHandshake entornoEjemplo m (.suspenderProceso 1)).any fun r =>
          (buscarProceso r.2.diccionarioProcesos 1).any fun p' =>
            p'.entradas.countP EntradaTabla.enSwap = 2) = true :=
    ⟨_, rfl, by decide +kernel⟩
  obtain ⟨m₀, h₀, hrun⟩ := hrun
  obtain ⟨m, h₁, hrun⟩ := (Option.any_eq_true _ _).mp hrun
  simp only [decide_eq_true_eq, Bool.decide_and, Bool.and_eq_true] at hrun
  obtain ⟨himagen, hproceso, hrun⟩ := hrun
  obtain ⟨p, hp, hproceso⟩ := (Option.any_eq_true _ _).mp hproceso
  simp only [decide_eq_true_eq, Bool.and_eq_true] at hproceso
  obtain ⟨hcuenta, hseek⟩ := hproceso
  obtain ⟨⟨envios, m'⟩, hat, hrun⟩ := (Option.any_eq_true _ _).mp hrun
  obtain ⟨p', hp', hfuera⟩ := (Option.any_eq_true _ _).mp hrun
  have halc₀ : AlcanzableCon OperacionesBien m₀ := by
    apply alcanzableCon_paso .inicial h₀
    apply bien_sin_suspender
    intro otro heq
    cases heq
  have halc : AlcanzableCon OperacionesBien m := by
    apply alcanzableCon_paso halc₀ h₁
    apply bien_sin_suspender
    intro otro heq
    cases heq
  have hpaso : PasoAjeno 1 m m' := by
    refine ⟨entornoEjemplo, .suspenderProceso 1, envios, trivial, hat,
      ⟨sin_fallas_ejemplo, ?_⟩, trivial⟩
    intro otro q heq hq
    cases heq
    cases hp.symm.trans hq
    exact hseek
  obtain ⟨n, hn, -, -, -, hsiempre⟩ := volcado_es_imagen halc hp
  obtain ⟨q, hq, hvolcado⟩ := hsiempre m' (.single hpaso)
  cases hp'.symm.trans hq
  refine ⟨m, m', p', hpaso, hp', of_decide_eq_true hfuera, ?_⟩
  rw [hvolcado entornoEjemplo sin_fallas_ejemplo, ← hn, hcuenta]
  exact himagen

end Ejemplo

end MemoriaVolcado
