import Tpssoo.MemoriaMarcos

/-!
# Swap slot accounting

The slot bitmap is exact as long as the bytes that `realloc` adds to it are clear beyond
the slot being taken: a bit that arrives set has no owner and is never cleared. The swap
metrics of a process count its pages in swap in every reachable state.
-/
namespace MemoriaSlots

open EnterosC Bucles RangosBytes MapaDeBits MemoriaEstado MemoriaSwap MemoriaPaginacion
  MemoriaPeticiones MemoriaFilas MemoriaEfectos MemoriaInvariante MemoriaMarcos

variable {cfg : Config} {env : Entorno} {m m' : Memoria cfg}

/-- The bytes that `realloc` adds have no bit set but perhaps the first. -/
def BitsNuevosLimpios (env : Entorno) : Prop :=
  ∀ n k, 1 ≤ k → k < 8 → (env.swap n).bitsNuevos k = false

/-- Page `q.2` of process `q.1` names slot `i`. -/
def OcupaSlot (m : Memoria cfg) (i : ℤ) (q : ℤ × ℕ) : Prop :=
  ∃ e, EntradaDe m q.1 q.2 e ∧ e.posicionSwap = i

def enSwapNeto (x : Metricas) : ℤ := x.escriturasSwap - x.lecturasSwap

/-- Slots and swap metrics are exact. -/
structure SlotsExactos (m : Memoria cfg) : Prop where
  bitmap : ∀ i : ℕ, m.almacen.bitmapSwap[i]? = some true ↔ ∃! q, OcupaSlot m i q
  unicos : ∀ (i : ℕ) q q', OcupaSlot m i q → OcupaSlot m i q' → q = q'
  ausentes : ∀ pid k e, EntradaDe m pid k e → e.posicionSwap ≠ -1 → e.presente = false
  presentes : ∀ pid k e, EntradaDe m pid k e → e.presente = true → e.posicionSwap = -1
  metricas : ∀ p ∈ m.diccionarioProcesos,
    enSwapNeto p.metricas = contarPaginasEnSwap p.tablaNivel1

section Bitmap

/-- Exact ownership of the slot bitmap, which holds whole bytes. -/
structure InvSlots (cfg : Config) (a : Almacen) (es : Multiset EntradaTabla) : Prop where
  base : InvEntradas cfg a es
  bytes : a.bitmapSwap.length % 8 = 0
  duenos : Propiedad a.bitmapSwap (slots es)

theorem propiedad_ocupar_slot {acc : AccesoSwap} {bits : List Bool} {duenos : Multiset ℤ}
    (hacc : ∀ k, 1 ≤ k → k < 8 → acc.bitsNuevos k = false) (hbytes : bits.length % 8 = 0)
    (h : Propiedad bits duenos) :
    Propiedad (ocupar (crecerBitmap acc bits (buscarSlotLibreSwap bits)) (buscarSlotLibreSwap bits))
      ((buscarSlotLibreSwap bits : ℤ) ::ₘ duenos) := by
  have hlen := slot_en_bitmap_crecido acc bits
  have hno : (buscarSlotLibreSwap bits : ℤ) ∉ duenos := by
    intro hmem
    exact slot_libre bits ((h.2 _).mp hmem)
  constructor
  · exact Multiset.nodup_cons.mpr ⟨hno, h.1⟩
  · intro j
    rw [Multiset.mem_cons, ocupado_ocupar (by omega), h.2]
    by_cases hlleno : bits.length ≤ buscarSlotLibreSwap bits
    · -- the bitmap grows by one byte, whose first bit is the slot itself
      have hslot : buscarSlotLibreSwap bits = bits.length :=
        Nat.le_antisymm (primerLibre_le bits) hlleno
      rw [crecerBitmap, if_pos hlleno, ocupado_append_iff]
      constructor
      · rintro (rfl | hj)
        · exact Or.inl rfl
        · exact Or.inr (Or.inl hj)
      · rintro (rfl | hj | ⟨hle, h₀, hj⟩)
        · exact Or.inl rfl
        · exact Or.inr hj
        · left
          obtain ⟨hk, hbit⟩ := List.getElem?_eq_some_iff.mp hj
          simp only [List.length_map, List.length_range] at hk
          simp only [List.getElem_map, List.getElem_range] at hbit
          rw [hslot] at hk ⊢
          by_contra hne
          have hlimpio := hacc (j - (bits.length : ℤ)).toNat (by omega) (by omega)
          rw [hlimpio] at hbit
          cases hbit
    · rw [crecerBitmap, if_neg hlleno]

theorem length_crecerBitmap {acc : AccesoSwap} {bits : List Bool} {slot : ℕ}
    (h : bits.length % 8 = 0) : (crecerBitmap acc bits slot).length % 8 = 0 := by
  unfold crecerBitmap
  split
  · simp only [List.length_append, List.length_map, List.length_range]
    omega
  · exact h

theorem conserva_InvSlots (hlimpio : BitsNuevosLimpios env) : Conserva cfg env (InvSlots cfg) where
  suspender := by
    intro r e c h
    have hbase := inv_suspenderEntrada env.swap h.base
    refine ⟨hbase, ?_, ?_⟩ <;> clear hbase <;> simp only [suspenderEntrada] <;>
      by_cases hp : e.presente = true
    · simp only [hp, if_true]
      rcases escribirEnSwap_slot cfg (env.swap r.accesos) r.almacen
        (contenidoMarco cfg r.almacen.memoriaUsuario e.numeroMarco) with ⟨hr, hb⟩ | ⟨hr, hb⟩
      · rw [if_pos hr]
        exact hb ▸ h.bytes
      · rw [if_neg (by omega)]
        simp only [hb, length_ocupar]
        exact length_crecerBitmap h.bytes
    · simpa [hp] using h.bytes
    · have hsw : e.posicionSwap = -1 := h.base.exclusion e (Multiset.mem_cons_self e c) hp
      have hs : Propiedad r.almacen.bitmapSwap (slots c) := slots_cons_fuera hsw ▸ h.duenos
      simp only [hp, if_true]
      rcases escribirEnSwap_slot cfg (env.swap r.accesos) r.almacen
        (contenidoMarco cfg r.almacen.memoriaUsuario e.numeroMarco) with ⟨hr, hb⟩ | ⟨hr, hb⟩
      · rw [if_pos hr]
        exact hb ▸ h.duenos
      · have hneg : (escribirEnSwap cfg (env.swap r.accesos) r.almacen
            (contenidoMarco cfg r.almacen.memoriaUsuario e.numeroMarco)).1 ≠ -1 := by omega
        rw [if_neg hneg, slots_cons_en hneg]
        simp only [hb, hr]
        exact propiedad_ocupar_slot (hlimpio _) h.bytes hs
    · simpa [hp] using h.duenos
  desuspender := by
    intro r e c h
    have hbase := inv_desuspenderPaso env.swap h.base
    by_cases hen : e.enSwap = true
    · have hsw : e.presente = false ∧ e.posicionSwap ≠ -1 := by
        simpa [EntradaTabla.enSwap] using hen
      by_cases hlleno : buscarMarcoLibre r.almacen.bitmapMarcos = -1
      · simpa [desuspenderPaso, desuspenderEntrada, hen, hlleno] using h
      · have hs : Propiedad r.almacen.bitmapSwap (e.posicionSwap ::ₘ slots c) :=
          slots_cons_en hsw.2 ▸ h.duenos
        refine ⟨hbase, ?_, ?_⟩ <;> clear hbase <;>
          simp only [desuspenderPaso, desuspenderEntrada, hen, hlleno, if_true, if_false]
        · simpa using h.bytes
        · rw [slots_cons_fuera rfl]
          exact propiedad_liberar hs
    · simpa [desuspenderPaso, desuspenderEntrada, hen] using h
  liberar := by
    intro a e c h
    have hbase := inv_liberarEntrada h.base
    have hsv : slots (entradaVacia ::ₘ c) = slots c := slots_cons_fuera rfl
    refine ⟨hbase, ?_, ?_⟩ <;> clear hbase <;> unfold liberarEntrada <;>
      by_cases hp : e.presente = true <;> by_cases hsw : e.posicionSwap = -1
    all_goals simp only [hp, hsw, if_true, ne_eq, not_true, not_false_eq_true, if_false,
      length_liberar, Bool.false_eq_true]
    all_goals first
      | exact h.bytes
      | skip
    · rw [hsv, ← slots_cons_fuera hsw]
      exact h.duenos
    · exact absurd (h.base.exclusion e (Multiset.mem_cons_self e c) hp) hsw
    · rw [hsv, ← slots_cons_fuera hsw]
      exact h.duenos
    · rw [hsv]
      exact propiedad_liberar (slots_cons_en hsw ▸ h.duenos)
  olvidar := by
    intro a n c h
    have hs : slots (List.replicate n entradaVacia : List EntradaTabla) = 0 := by
      apply slots_fuera
      intro e he
      rw [List.eq_of_mem_replicate he]
      rfl
    exact ⟨(conserva_InvEntradas env).olvidar _ _ _ h.base, h.bytes, by simpa [hs] using h.duenos⟩
  asignar := by
    intro a k n c hk h
    have hbase := (conserva_InvEntradas env).asignar a k n c hk h.base
    refine ⟨hbase, h.bytes, ?_⟩
    have hfila : slots ((tomarMarcos k a.bitmapMarcos).1.map entradaEn ++
        List.replicate n entradaVacia : List EntradaTabla) = 0 := by
      apply slots_fuera
      intro e he
      rcases List.mem_append.mp he with he | he
      · obtain ⟨i, -, rfl⟩ := List.mem_map.mp he
        rfl
      · rw [List.eq_of_mem_replicate he]
        rfl
    rw [slots_add, hfila, Multiset.zero_add]
    exact h.duenos
  escribir := by
    intro a i xs c hi h
    exact ⟨(conserva_InvEntradas env).escribir a i xs c hi h.base, h.bytes, h.duenos⟩

end Bitmap

section Metricas

/-- The swap metrics of a process count its pages in swap. -/
def MetricasExactas (p : Proceso cfg) : Prop :=
  enSwapNeto p.metricas = p.entradas.countP EntradaTabla.enSwap

/-- A walk that moves pages moves the metric with them. -/
theorem neto_bucle {f : Recorrido → EntradaTabla → Recorrido × EntradaTabla}
    (hf : ∀ r e, (e.presente = true → e.posicionSwap = -1) →
      enSwapNeto (f r e).1.metricas - (if (f r e).2.enSwap then 1 else 0) =
        enSwapNeto r.metricas - (if e.enSwap then 1 else 0))
    {r : Recorrido} {es : List EntradaTabla}
    (hes : ∀ e ∈ es, e.presente = true → e.posicionSwap = -1) :
    enSwapNeto (bucle f r es).1.metricas - (bucle f r es).2.countP EntradaTabla.enSwap =
      enSwapNeto r.metricas - es.countP EntradaTabla.enSwap := by
  induction es generalizing r with
  | nil => rfl
  | cons e es ih =>
    have hcola := ih (r := (f r e).1) fun x hx => hes x (List.mem_cons_of_mem e hx)
    have hcabeza := hf r e (hes e List.mem_cons_self)
    simp only [bucle, List.countP_cons, Nat.cast_add, Nat.cast_ite, Nat.cast_one, Nat.cast_zero]
    omega

theorem neto_suspenderEntrada (cfg : Config) (swap : ℕ → AccesoSwap) (r : Recorrido)
    (e : EntradaTabla) :
    enSwapNeto (suspenderEntrada cfg swap r e).1.metricas -
        (if (suspenderEntrada cfg swap r e).2.enSwap then 1 else 0) =
      enSwapNeto r.metricas - (if e.enSwap then 1 else 0) := by
  by_cases hp : e.presente = true
  · simp only [suspenderEntrada, hp, if_true]
    split
    · rfl
    · rename_i hneg
      simp [enSwapNeto, EntradaTabla.enSwap, hp, hneg]
      omega
  · simp [suspenderEntrada, hp]

theorem neto_desuspenderPaso (cfg : Config) (swap : ℕ → AccesoSwap) (r : Recorrido)
    (e : EntradaTabla) :
    enSwapNeto (desuspenderPaso cfg swap r e).1.metricas -
        (if (desuspenderPaso cfg swap r e).2.enSwap then 1 else 0) =
      enSwapNeto r.metricas - (if e.enSwap then 1 else 0) := by
  by_cases hen : e.enSwap = true
  · by_cases hlleno : buscarMarcoLibre r.almacen.bitmapMarcos = -1
    · simp [desuspenderPaso, desuspenderEntrada, hen, hlleno]
    · simp only [desuspenderPaso, desuspenderEntrada, hen, hlleno, if_true, if_false]
      simp [enSwapNeto, EntradaTabla.enSwap]
      omega
  · simp [desuspenderPaso, desuspenderEntrada, hen]

theorem metricas_efecto (hinv : Invariante m) (h : ∀ p ∈ m.diccionarioProcesos, MetricasExactas p)
    {pet : Peticion} (hef : Efecto env m pet m') :
    ∀ p ∈ m'.diccionarioProcesos, MetricasExactas p := by
  have hquietas : procesos m' = procesos m → ∀ p ∈ m'.diccionarioProcesos, MetricasExactas p := by
    intro hpr p hp
    have hmem : soloMetricasSwap p ∈ procesos m := hpr ▸ List.mem_map_of_mem hp
    obtain ⟨q, hq, hqp⟩ := List.mem_map.mp hmem
    have hmet : enSwapNeto (soloMetricasSwap q).metricas = enSwapNeto
        (soloMetricasSwap p).metricas :=
      congrArg (fun x => enSwapNeto x.metricas) hqp
    have hent : (soloMetricasSwap q).entradas = (soloMetricasSwap p).entradas :=
      congrArg Proceso.entradas hqp
    have hfila : q.entradas = p.entradas := hent
    calc enSwapNeto p.metricas = enSwapNeto q.metricas := hmet.symm
      _ = q.entradas.countP EntradaTabla.enSwap := h q hq
      _ = p.entradas.countP EntradaTabla.enSwap := by rw [hfila]
  have hex : ∀ p ∈ m.diccionarioProcesos, ∀ e ∈ p.entradas, e.presente = true →
      e.posicionSwap = -1 := by
    intro p hp e he
    exact hinv.entradas.exclusion e (List.mem_flatMap.mpr ⟨p, hp, he⟩)
  have hmodifica : ∀ q : Proceso cfg, MetricasExactas q →
      ∀ p ∈ modificarProceso m.diccionarioProcesos q, MetricasExactas p := by
    intro q hq p hp
    obtain ⟨x, hx, rfl⟩ := List.mem_map.mp hp
    split
    · exact hq
    · exact h x hx
  cases hef with
  | quieto ha hp => exact hquietas hp
  | escritura hcopia hlargo ha hp => exact hquietas hp
  | alta inst hcabe =>
    rename_i pid tam largo path
    intro p hp
    rcases List.mem_cons.mp hp with rfl | hp
    · obtain ⟨-, vacias, hfila⟩ := crearProceso_eq pid inst hcabe
      have hmet : (crearProceso cfg m.almacen.bitmapMarcos pid tam inst).1.metricas = .cero := by
        unfold crearProceso
        dsimp only
        split <;> rfl
      unfold MetricasExactas
      rw [hmet, hfila, List.countP_append, List.countP_map, List.countP_replicate]
      have hen : (EntradaTabla.enSwap ∘ entradaEn) = fun _ => false := rfl
      simp [hen, enSwapNeto, Metricas.cero, EntradaTabla.enSwap]
    · exact h p (List.mem_of_mem_filter hp)
  | baja hp =>
    intro p hpm
    exact h p (List.mem_of_mem_filter hpm)
  | suspension hp =>
    rename_i pid p
    apply hmodifica
    have hmem := (buscarProceso_some hp).1
    obtain ⟨-, h₂, h₃⟩ := suspenderPaginas_eq env m.almacen p
    have hneto := neto_bucle (r := ⟨m.almacen, p.metricas, 0⟩)
      (fun r e _ => neto_suspenderEntrada cfg env.swap r e) (hex p hmem)
    have hp' := h p hmem
    unfold MetricasExactas at hp' ⊢
    simp only [suspenderTodo] at h₂ h₃
    rw [h₂, h₃]
    simp only at hneto
    omega
  | desuspension hp hcabe =>
    rename_i pid p
    apply hmodifica
    have hmem := (buscarProceso_some hp).1
    obtain ⟨-, h₂, h₃⟩ := desuspenderPaginas_eq env m.almacen p
    have hneto := neto_bucle (r := ⟨m.almacen, p.metricas, 0⟩)
      (fun r e _ => neto_desuspenderPaso cfg env.swap r e) (hex p hmem)
    have hp' := h p hmem
    unfold MetricasExactas at hp' ⊢
    simp only [desuspenderTodo] at h₂ h₃
    rw [h₂, h₃]
    simp only at hneto
    omega

theorem metricas_de_alcanzable {P : Memoria cfg → Entorno → Peticion → Memoria cfg → Prop}
    (h : AlcanzableCon P m) : ∀ p ∈ m.diccionarioProcesos, MetricasExactas p := by
  induction h with
  | inicial => simp [inicial]
  | paso hm hp ih =>
    obtain ⟨env, pet, envios, hfresco, hat, -⟩ := hp
    have hinv := invariante_de_alcanzable hm
    exact metricas_efecto hinv ih (efecto_de_atender hinv.pids hat)

end Metricas

section Ejecuciones

/-- Runs in which `realloc` adds clean bytes. -/
abbrev AlcanzableLimpio (m : Memoria cfg) : Prop :=
  AlcanzableCon (fun _ env _ _ => BitsNuevosLimpios env) m

theorem invSlots_de_alcanzable (h : AlcanzableLimpio m) :
    InvSlots cfg m.almacen (todasEntradas m.diccionarioProcesos) := by
  induction h with
  | inicial =>
    exact ⟨invariante_inicial.entradas, by simp [inicial], propiedad_vacia _⟩
  | paso hm hp ih =>
    obtain ⟨env, pet, envios, hfresco, hat, hlimpio⟩ := hp
    have hn := (invariante_de_alcanzable hm).pids
    exact entradas_efecto (conserva_InvSlots hlimpio) hn ih hfresco (efecto_de_atender hn hat)

/-- When every byte that `realloc` adds is clean, slots and swap metrics are exact in every
state reached. -/
theorem slots_exactos (h : AlcanzableLimpio m) : SlotsExactos m := by
  have hinv := invariante_de_alcanzable h
  have hslots := invSlots_de_alcanzable h
  have hmem : ∀ {pid k e}, EntradaDe m pid k e → e ∈ todasEntradas m.diccionarioProcesos :=
    fun he => mem_todas_de_entrada he
  have hunicos : ∀ (i : ℕ) q q', OcupaSlot m i q → OcupaSlot m i q' → q = q' := by
    rintro i ⟨pid, k⟩ ⟨pid', k'⟩ ⟨e, he, hs⟩ ⟨e', he', hs'⟩
    have hn := hslots.duenos.1
    unfold slots at hn
    have hsel : ((fun x : EntradaTabla => decide (x.posicionSwap ≠ -1)) e) = true := by
      simp [hs]
    have hsel' : ((fun x : EntradaTabla => decide (x.posicionSwap ≠ -1)) e') = true := by
      simp [hs']
    obtain ⟨rfl, rfl⟩ := pagina_unica (fun x => decide (x.posicionSwap ≠ -1)) hinv.pids
      (by simpa using hn) he he' hsel hsel' (hs.trans hs'.symm)
    rfl
  have hocupa : ∀ i : ℕ, m.almacen.bitmapSwap[i]? = some true ↔ ∃ q, OcupaSlot m i q := by
    intro i
    have hbit : m.almacen.bitmapSwap[i]? = some true ↔ Ocupado m.almacen.bitmapSwap i := by
      simp [Ocupado]
    rw [hbit, ← hslots.duenos.2, mem_slots]
    constructor
    · rintro ⟨e, he, -, hi⟩
      obtain ⟨pid, k, hek⟩ := entrada_de_mem hinv.pids he
      exact ⟨(pid, k), e, hek, hi⟩
    · rintro ⟨q, e, he, hi⟩
      exact ⟨e, hmem he, by omega, hi⟩
  refine ⟨?_, hunicos, ?_, ?_, ?_⟩
  · intro i
    rw [hocupa]
    constructor
    · rintro ⟨q, hq⟩
      exact ⟨q, hq, fun q' hq' => hunicos i q' q hq' hq⟩
    · rintro ⟨q, hq, -⟩
      exact ⟨q, hq⟩
  · intro pid k e he hs
    by_contra hp
    exact hs (hinv.entradas.exclusion e (hmem he) (by simpa using hp))
  · intro pid k e he hp
    exact hinv.entradas.exclusion e (hmem he) hp
  · intro p hp
    rw [contarPaginasEnSwap_eq]
    exact metricas_de_alcanzable h p hp

/-- Two pages go to swap and come back. -/
theorem slots_exactos_ejemplo :
    ∃ m : Memoria configEjemplo,
      ejecutar (inicial configEjemplo) [(entornoEjemplo, .initProc 1 6 0 []),
        (entornoEjemplo, .suspenderProceso 1), (entornoEjemplo, .desuspenderProceso 1)] = some m ∧
      SlotsExactos m := by
  refine ⟨_, rfl, slots_exactos ?_⟩
  apply alcanzableCon_ejecutar [(entornoEjemplo, .initProc 1 6 0 []),
    (entornoEjemplo, .suspenderProceso 1), (entornoEjemplo, .desuspenderProceso 1)] _ .inicial rfl
  intro p hp n k _ _
  simp only [List.mem_cons, List.not_mem_nil, or_false] at hp
  rcases hp with rfl | rfl | rfl <;> rfl

end Ejecuciones

section BitsSucios

/-- Sixteen frames of one byte. -/
def configMinima : Config := crearConfig [] 16 1 2 4 (by decide)

/-- No operation fails, and `realloc` adds bytes with all their bits set. -/
def entornoSucio : Entorno :=
  ⟨fun _ => some [69, 88, 73, 84, 10], true, fun _ => ⟨true, true, 4096, fun _ => true, fun _ => 0⟩⟩

/-- The ninth page makes the bitmap grow: bit 9 is set and no page has slot 9. -/
theorem bit_sin_dueno :
    ¬ ∀ m : Memoria configMinima,
      AlcanzableCon (fun _ env _ _ => env.SinFallas configMinima) m → SlotsExactos m := by
  intro h
  have hrun : ∃ m : Memoria configMinima, ejecutar (inicial configMinima)
      [(entornoSucio, .initProc 1 9 0 []), (entornoSucio, .suspenderProceso 1)] = some m ∧
      m.almacen.bitmapSwap[9]? = some true ∧
      ∀ e ∈ todasEntradas m.diccionarioProcesos, e.posicionSwap ≠ 9 :=
    ⟨_, rfl, by decide, by decide⟩
  obtain ⟨m, hm, hbit, hnadie⟩ := hrun
  have halc : AlcanzableCon (fun _ env _ _ => env.SinFallas configMinima) m := by
    apply alcanzableCon_ejecutar _ _ .inicial hm
    intro p hp n
    simp only [List.mem_cons, List.not_mem_nil, or_false] at hp
    rcases hp with rfl | rfl <;> exact ⟨rfl, (by decide : 1 ≤ 4096)⟩
  obtain ⟨q, ⟨e, he, hs⟩, -⟩ := ((h m halc).bitmap 9).mp hbit
  exact hnadie e (mem_todas_de_entrada he) hs

end BitsSucios

end MemoriaSlots
