import Tpssoo.MemoriaEfectos

/-!
# Frame and slot ownership

The invariant over all last-level entries of all live processes: the frame bitmap is
owned exactly by the present entries, each entry in swap owns a marked slot, and no entry
has both. Each body of a walk keeps it for the entry it rewrites and the rest, whatever
the swap file does; the frame rule takes it to the walks, and the inversion of requests
to every reachable state.
-/
namespace MemoriaInvariante

open EnterosC Bucles RangosBytes MapaDeBits MemoriaEstado MemoriaSwap MemoriaPaginacion
  MemoriaTraduccion MemoriaPeticiones MemoriaFilas MemoriaEfectos

variable {cfg : Config} {swap : ℕ → AccesoSwap} {a : Almacen} {c : Multiset EntradaTabla}
  {e : EntradaTabla}

section Multiconjuntos

theorem marcos_cons_presente (h : e.presente = true) :
    marcos (e ::ₘ c) = e.numeroMarco ::ₘ marcos c := by
  simp [marcos, Multiset.filter_cons_of_pos, h]

theorem marcos_cons_ausente (h : e.presente = false) : marcos (e ::ₘ c) = marcos c := by
  simp [marcos, Multiset.filter_cons_of_neg, h]

theorem slots_cons_en (h : e.posicionSwap ≠ -1) :
    slots (e ::ₘ c) = e.posicionSwap ::ₘ slots c := by
  simp [slots, Multiset.filter_cons_of_pos, h]

theorem slots_cons_fuera (h : e.posicionSwap = -1) : slots (e ::ₘ c) = slots c := by
  simp [slots, Multiset.filter_cons_of_neg, h]

@[simp] theorem marcos_add (c d : Multiset EntradaTabla) : marcos (c + d) =
  marcos c + marcos d := by
  simp [marcos, Multiset.filter_add]

@[simp] theorem slots_add (c d : Multiset EntradaTabla) : slots (c + d) = slots c + slots d := by
  simp [slots, Multiset.filter_add]

theorem mem_marcos {i : ℤ} : i ∈ marcos c ↔ ∃ e ∈ c, e.presente = true ∧ e.numeroMarco = i := by
  simp [marcos, and_assoc]

theorem mem_slots {i : ℤ} : i ∈ slots c ↔ ∃ e ∈ c, e.posicionSwap ≠ -1 ∧ e.posicionSwap = i := by
  simp [slots, and_assoc]

theorem card_marcos : (marcos c).card = c.countP fun e => e.presente = true := by
  rw [marcos, Multiset.card_map, Multiset.countP_eq_card_filter]

end Multiconjuntos

/-- Ownership over a multiset of entries. -/
structure InvEntradas (cfg : Config) (a : Almacen) (es : Multiset EntradaTabla) : Prop where
  memoria : a.memoriaUsuario.length = cfg.tamMemoria
  bitmap : a.bitmapMarcos.length = cfg.cantidadMarcos
  duenosMarcos : Propiedad a.bitmapMarcos (marcos es)
  duenosSlots : Cubre a.bitmapSwap (slots es)
  exclusion : ∀ e ∈ es, e.presente = true → e.posicionSwap = -1

section Pasos

theorem marco_rango (h : InvEntradas cfg a c) (he : e ∈ c) (hp : e.presente = true) :
    0 ≤ e.numeroMarco ∧ e.numeroMarco < cfg.cantidadMarcos := by
  have := ocupado_rango ((h.duenosMarcos.2 e.numeroMarco).mp (mem_marcos.mpr ⟨e, he, hp, rfl⟩))
  rwa [h.bitmap] at this

theorem slot_rango (h : InvEntradas cfg a c) (he : e ∈ c) (hs : e.posicionSwap ≠ -1) :
    0 ≤ e.posicionSwap ∧ e.posicionSwap < a.bitmapSwap.length :=
  ocupado_rango (h.duenosSlots.2 _ (mem_slots.mpr ⟨e, he, hs, rfl⟩))

theorem inv_suspenderEntrada (swap : ℕ → AccesoSwap) {r : Recorrido}
    (h : InvEntradas cfg r.almacen (e ::ₘ c)) :
    InvEntradas cfg (suspenderEntrada cfg swap r e).1.almacen
      ((suspenderEntrada cfg swap r e).2 ::ₘ c) := by
  unfold suspenderEntrada
  by_cases hp : e.presente = true
  · have hsw : e.posicionSwap = -1 := h.exclusion e (Multiset.mem_cons_self e c) hp
    have hm : Propiedad r.almacen.bitmapMarcos (e.numeroMarco ::ₘ marcos c) :=
      marcos_cons_presente hp ▸ h.duenosMarcos
    have hs : Cubre r.almacen.bitmapSwap (slots c) := slots_cons_fuera hsw ▸ h.duenosSlots
    have hex : ∀ x ∈ c, x.presente = true → x.posicionSwap = -1 := fun x hx =>
      h.exclusion x (Multiset.mem_cons_of_mem hx)
    simp only [hp, if_true]
    generalize contenidoMarco cfg r.almacen.memoriaUsuario e.numeroMarco = pagina
    obtain ⟨hmem, hbit⟩ := escribirEnSwap_memoria cfg (swap r.accesos) r.almacen pagina
    rcases escribirEnSwap_slot cfg (swap r.accesos) r.almacen pagina with
      ⟨hr, hb⟩ | ⟨hr, hb⟩
    · rw [if_pos hr]
      exact ⟨hmem ▸ h.memoria, hbit ▸ h.bitmap, hbit ▸ h.duenosMarcos, hb ▸ h.duenosSlots,
        h.exclusion⟩
    · have hneg : (escribirEnSwap cfg (swap r.accesos) r.almacen pagina).1 ≠ -1 := by omega
      have hlibre : (buscarSlotLibreSwap r.almacen.bitmapSwap : ℤ) ∉ slots c := fun hmem =>
        slot_libre r.almacen.bitmapSwap (hs.2 _ hmem)
      have hlen := slot_en_bitmap_crecido (swap r.accesos) r.almacen.bitmapSwap
      rw [if_neg hneg]
      refine ⟨hmem ▸ h.memoria, ?_, ?_, ?_, ?_⟩
      · simp only [liberarMarco, length_liberar, hbit, h.bitmap]
      · rw [marcos_cons_ausente rfl]
        simp only [hbit]
        exact propiedad_liberar hm
      · rw [slots_cons_en hneg]
        simp only [hb, hr]
        exact cubre_ocupar (cubre_crecerBitmap _ _ hs) (by omega) hlibre
      · intro x hx hxp
        rcases Multiset.mem_cons.mp hx with rfl | hx
        · cases hxp
        · exact hex x hx hxp
  · simpa [hp] using h

theorem length_leerDeSwap_le (cfg : Config) (acc : AccesoSwap) (archivo : List Byte) (slot : ℤ) :
    (leerDeSwap cfg acc archivo slot).length ≤ cfg.tamPagina := by
  unfold leerDeSwap
  split
  · simp only [List.length_take, length_leerRango]
    omega
  · exact Nat.zero_le _

/-- Frame pointers are exact: the product does not overflow and the page lies in memory. -/
theorem puntero_marco (cfg : Config) {m : ℤ} (h : 0 ≤ m ∧ m < cfg.cantidadMarcos) :
    (m * cfg.tamPagina).toNat = m.toNat * cfg.tamPagina ∧
      m.toNat * cfg.tamPagina + cfg.tamPagina ≤ cfg.tamMemoria := by
  obtain ⟨k, rfl⟩ := Int.eq_ofNat_of_zero_le h.1
  refine ⟨?_, cfg.marco_dentro (by simpa using h.2)⟩
  rw [← Int.natCast_mul, Int.toNat_natCast, Int.toNat_natCast]

theorem inv_desuspenderPaso (swap : ℕ → AccesoSwap) {r : Recorrido}
    (h : InvEntradas cfg r.almacen (e ::ₘ c)) :
    InvEntradas cfg (desuspenderPaso cfg swap r e).1.almacen
      ((desuspenderPaso cfg swap r e).2 ::ₘ c) := by
  unfold desuspenderPaso desuspenderEntrada
  by_cases hen : e.enSwap = true
  · obtain ⟨hp, hsw⟩ : e.presente = false ∧ e.posicionSwap ≠ -1 := by
      simpa [EntradaTabla.enSwap] using hen
    simp only [hen, if_true]
    by_cases hlleno : buscarMarcoLibre r.almacen.bitmapMarcos = -1
    · simpa [hlleno] using h
    · obtain ⟨h₀, h₁, hlibre⟩ := marco_libre_rango hlleno
      have hm : Propiedad r.almacen.bitmapMarcos (marcos c) :=
        marcos_cons_ausente hp ▸ h.duenosMarcos
      have hs : Cubre r.almacen.bitmapSwap (e.posicionSwap ::ₘ slots c) :=
        slots_cons_en hsw ▸ h.duenosSlots
      obtain ⟨hptr, hdentro⟩ := puntero_marco cfg ⟨h₀, h.bitmap ▸ h₁⟩
      have hleidos := length_leerDeSwap_le cfg (swap r.accesos) r.almacen.archivoSwap
        e.posicionSwap
      simp only [hlleno, if_false]
      refine ⟨?_, ?_, ?_, ?_, ?_⟩
      · rw [hptr, length_escribirRango (by rw [h.memoria]; omega), h.memoria]
      · simp only [ocuparMarco, length_ocupar, h.bitmap]
      · rw [marcos_cons_presente rfl]
        exact propiedad_ocupar hm ⟨h₀, h₁⟩ hlibre
      · rw [slots_cons_fuera rfl]
        exact cubre_liberar hs
      · intro x hx hxp
        rcases Multiset.mem_cons.mp hx with rfl | hx
        · rfl
        · exact h.exclusion x (Multiset.mem_cons_of_mem hx) hxp
  · simpa [hen] using h

theorem inv_liberarEntrada (h : InvEntradas cfg a (e ::ₘ c)) :
    InvEntradas cfg (liberarEntrada a e) (entradaVacia ::ₘ c) := by
  have hex : ∀ x ∈ entradaVacia ::ₘ c, x.presente = true → x.posicionSwap = -1 := by
    intro x hx hxp
    rcases Multiset.mem_cons.mp hx with rfl | hx
    · rfl
    · exact h.exclusion x (Multiset.mem_cons_of_mem hx) hxp
  have hmv : marcos (entradaVacia ::ₘ c) = marcos c := marcos_cons_ausente rfl
  have hsv : slots (entradaVacia ::ₘ c) = slots c := slots_cons_fuera rfl
  unfold liberarEntrada
  by_cases hp : e.presente = true
  · have hsw : e.posicionSwap = -1 := h.exclusion e (Multiset.mem_cons_self e c) hp
    simp only [hp, if_true]
    exact ⟨h.memoria, by simp [liberarMarco, h.bitmap],
      hmv ▸ propiedad_liberar (marcos_cons_presente hp ▸ h.duenosMarcos),
      hsv ▸ slots_cons_fuera hsw ▸ h.duenosSlots, hex⟩
  · have hp' : e.presente = false := by simpa using hp
    by_cases hsw : e.posicionSwap = -1
    · simp only [hp, hsw, if_false, ne_eq, not_true]
      exact ⟨h.memoria, h.bitmap, hmv ▸ marcos_cons_ausente hp' ▸ h.duenosMarcos,
        hsv ▸ slots_cons_fuera hsw ▸ h.duenosSlots, hex⟩
    · simp only [hp, ne_eq, hsw, not_false_eq_true, if_true]
      exact ⟨h.memoria, h.bitmap, hmv ▸ marcos_cons_ausente hp' ▸ h.duenosMarcos,
        hsv ▸ cubre_liberar (slots_cons_en hsw ▸ h.duenosSlots), hex⟩

end Pasos

section Asignacion

/-- Taking the first free frame a number of times. -/
def tomarMarcos : ℕ → List Bool → List ℤ × List Bool
  | 0, bits => ([], bits)
  | k + 1, bits =>
    let r := tomarMarcos k (ocuparMarco bits (buscarMarcoLibre bits))
    (buscarMarcoLibre bits :: r.1, r.2)

def entradaEn (marco : ℤ) : EntradaTabla := ⟨true, marco, -1⟩

variable {k n : ℕ} {bits : List Bool} {duenos : Multiset ℤ}

@[simp] theorem length_tomarMarcos : (tomarMarcos k bits).1.length = k := by
  induction k generalizing bits with
  | zero => rfl
  | succ k ih => simp [tomarMarcos, ih]

@[simp] theorem length_bitmap_tomarMarcos : (tomarMarcos k bits).2.length = bits.length := by
  induction k generalizing bits with
  | zero => rfl
  | succ k ih => simp [tomarMarcos, ih, ocuparMarco]

theorem propiedad_tomarMarcos (h : Propiedad bits duenos) (hk : k ≤ bits.count false) :
    Propiedad (tomarMarcos k bits).2 (↑(tomarMarcos k bits).1 + duenos) := by
  induction k generalizing bits duenos with
  | zero => simpa [tomarMarcos] using h
  | succ k ih =>
    have hlibre : buscarMarcoLibre bits ≠ -1 := fun he => by
      have := buscarMarcoLibre_eq_neg_iff.mp he
      omega
    obtain ⟨h₀, h₁, hno⟩ := marco_libre_rango hlibre
    have hcuenta : (ocupar bits (buscarMarcoLibre bits)).count false + 1 = bits.count false :=
      count_ocuparMarco hlibre
    have h' := ih (propiedad_ocupar h ⟨h₀, h₁⟩ hno) (by omega)
    simpa [tomarMarcos, Multiset.add_cons, ← Multiset.cons_coe] using h'

/-- The frames taken were free, are different, and are the ones newly marked. -/
theorem tomarMarcos_libres (hn : n ≤ bits.count false) :
    (tomarMarcos n bits).1.Nodup ∧
      (∀ i ∈ (tomarMarcos n bits).1, 0 ≤ i ∧ i < bits.length ∧ ¬Ocupado bits i) ∧
      ∀ i, Ocupado (tomarMarcos n bits).2 i ↔ i ∈ (tomarMarcos n bits).1 ∨ Ocupado bits i := by
  have hprop : Propiedad bits (indices bits) := propiedad_iff.mpr rfl
  obtain ⟨hnodup, hocupados⟩ := propiedad_tomarMarcos hprop hn
  obtain ⟨hmarcos, -, hdisjuntos⟩ := Multiset.nodup_add.mp hnodup
  refine ⟨Multiset.coe_nodup.mp hmarcos, fun i hi => ?_, fun i => ?_⟩
  · have hocupado := (hocupados i).mp (Multiset.mem_add.mpr (Or.inl hi))
    obtain ⟨h₀, h₁⟩ := ocupado_rango hocupado
    rw [length_bitmap_tomarMarcos] at h₁
    refine ⟨h₀, h₁, fun hantes => ?_⟩
    exact Multiset.disjoint_left.mp hdisjuntos hi (mem_indices.mpr hantes)
  · rw [← hocupados, Multiset.mem_add, Multiset.mem_coe, Multiset.mem_coe, mem_indices]

/-- With enough free frames the allocator gives one to each blank entry in order, and
stops when none is left to give or no entry is left. -/
theorem asignar_vacias (hk : k ≤ bits.count false) :
    bucleMientras (fun s : Asignacion => decide (0 < s.restantes)) asignarEntrada ⟨bits, k⟩
        (List.replicate n entradaVacia) =
      (true, ⟨(tomarMarcos (min k n) bits).2, k - min k n⟩,
        (tomarMarcos (min k n) bits).1.map entradaEn ++ List.replicate (n - k) entradaVacia) := by
  induction n generalizing k bits with
  | zero => simp [bucleMientras, tomarMarcos]
  | succ n ih =>
    cases k with
    | zero => simp [bucleMientras_parado, tomarMarcos]
    | succ k =>
      have hlibre : buscarMarcoLibre bits ≠ -1 := fun he => by
        have := buscarMarcoLibre_eq_neg_iff.mp he
        omega
      have hcuenta := count_ocuparMarco hlibre
      have hpaso : asignarEntrada ⟨bits, k + 1⟩ entradaVacia =
          (true, ⟨ocuparMarco bits (buscarMarcoLibre bits), k⟩,
            entradaEn (buscarMarcoLibre bits)) := by
        simp [asignarEntrada, hlibre, entradaVacia, entradaEn]
      have hresto : k ≤ (ocuparMarco bits (buscarMarcoLibre bits)).count false := by omega
      have hmin : min (k + 1) (n + 1) = min k n + 1 := by omega
      rw [List.replicate_succ, hmin]
      simp only [bucleMientras, Nat.zero_lt_succ, decide_true, if_true, hpaso,
        ih hresto, tomarMarcos,
        List.map_cons, List.cons_append, Nat.add_sub_add_right]

theorem asignarFila_eq (hk : k ≤ bits.count false) :
    asignarFila cfg ⟨bits, k⟩ =
      (true, ⟨(tomarMarcos (min k cfg.paginasDireccionables) bits).2,
          k - min k cfg.paginasDireccionables⟩,
        (tomarMarcos (min k cfg.paginasDireccionables) bits).1.map entradaEn ++
          List.replicate (cfg.paginasDireccionables - k) entradaVacia) :=
  asignar_vacias hk

/-- Pages that the allocator can give to a new process. -/
def paginasDadas (cfg : Config) (tam : ℤ) : ℕ :=
  min (paginasRequeridas cfg tam).toNat cfg.paginasDireccionables

theorem crearProceso_eq (pid : ℤ) {tam : ℤ} (inst : List Instruccion)
    (hk : paginasRequeridas cfg tam ≤ bits.count false) :
    (crearProceso cfg bits pid tam inst).2 = (tomarMarcos (paginasDadas cfg tam) bits).2 ∧
      ∃ vacias, (crearProceso cfg bits pid tam inst).1.entradas =
        (tomarMarcos (paginasDadas cfg tam) bits).1.map entradaEn ++
          List.replicate vacias entradaVacia := by
  unfold crearProceso paginasDadas
  by_cases h : 0 < paginasRequeridas cfg tam
  · have heq := asignarPaginas_eq cfg ⟨bits, (paginasRequeridas cfg tam).toNat⟩
    rw [asignarFila_eq (by omega)] at heq
    simp only [Prod.mk.injEq] at heq
    simp only [h, if_true]
    exact ⟨congrArg Asignacion.bitmapMarcos heq.2.1, _, heq.2.2⟩
  · have hcero : (paginasRequeridas cfg tam).toNat = 0 := by omega
    simp only [h, if_false, hcero, Nat.zero_min, tomarMarcos]
    exact ⟨trivial, 0, rfl⟩

theorem marcos_entradaEn (ms : List ℤ) :
    marcos (ms.map entradaEn : List EntradaTabla) = (ms : Multiset ℤ) := by
  induction ms with
  | nil => rfl
  | cons m ms ih =>
    rw [List.map_cons, ← Multiset.cons_coe, marcos_cons_presente rfl, ih]
    rfl

theorem marcos_vacias (n : ℕ) :
    marcos (List.replicate n entradaVacia : List EntradaTabla) = 0 := by
  induction n with
  | zero => rfl
  | succ n ih => rw [List.replicate_succ, ← Multiset.cons_coe, marcos_cons_ausente rfl, ih]

theorem slots_fuera {es : List EntradaTabla} (h : ∀ e ∈ es, e.posicionSwap = -1) :
    slots (es : Multiset EntradaTabla) = 0 := by
  induction es with
  | nil => rfl
  | cons x xs ih =>
    rw [← Multiset.cons_coe, slots_cons_fuera (h x (by simp)), ih fun y hy => h y (by simp [hy])]

theorem inv_asignar {ms : List ℤ} {b : List Bool} {vacias : ℕ} (h : InvEntradas cfg a c)
    (hlen : b.length = a.bitmapMarcos.length) (hb : Propiedad b (↑ms + marcos c)) :
    InvEntradas cfg { a with bitmapMarcos := b }
      (↑(ms.map entradaEn ++ List.replicate vacias entradaVacia) + c) := by
  have hfila : ∀ e ∈ ms.map entradaEn ++ List.replicate vacias entradaVacia,
      e.posicionSwap = -1 := by
    intro e he
    rcases List.mem_append.mp he with he | he
    · obtain ⟨m, -, rfl⟩ := List.mem_map.mp he
      rfl
    · rw [List.eq_of_mem_replicate he]
      rfl
  refine ⟨h.memoria, hlen.trans h.bitmap, ?_, ?_, ?_⟩
  · rw [marcos_add, ← Multiset.coe_add, marcos_add, marcos_entradaEn, marcos_vacias,
      Multiset.add_zero]
    exact hb
  · rw [slots_add, slots_fuera hfila, Multiset.zero_add]
    exact h.duenosSlots
  · intro e he hp
    rcases Multiset.mem_add.mp he with he | he
    · exact hfila e he
    · exact h.exclusion e he hp

end Asignacion

/-- What it takes of a property of the stores and of all entries to survive any request. -/
structure Conserva (cfg : Config) (env : Entorno) (I : Almacen → Multiset EntradaTabla → Prop) :
    Prop where
  suspender : ∀ (r : Recorrido) (e : EntradaTabla) (c : Multiset EntradaTabla),
    I r.almacen (e ::ₘ c) →
      I (suspenderEntrada cfg env.swap r e).1.almacen ((suspenderEntrada cfg env.swap r e).2 ::ₘ c)
  desuspender : ∀ (r : Recorrido) (e : EntradaTabla) (c : Multiset EntradaTabla),
    I r.almacen (e ::ₘ c) →
      I (desuspenderPaso cfg env.swap r e).1.almacen ((desuspenderPaso cfg env.swap r e).2 ::ₘ c)
  liberar : ∀ (a : Almacen) (e : EntradaTabla) (c : Multiset EntradaTabla),
    I a (e ::ₘ c) → I (liberarEntrada a e) (entradaVacia ::ₘ c)
  olvidar : ∀ (a : Almacen) (n : ℕ) (c : Multiset EntradaTabla),
    I a (↑(List.replicate n entradaVacia) + c) → I a c
  asignar : ∀ (a : Almacen) (k n : ℕ) (c : Multiset EntradaTabla),
    k ≤ a.bitmapMarcos.count false → I a c →
      I { a with bitmapMarcos := (tomarMarcos k a.bitmapMarcos).2 }
        (↑((tomarMarcos k a.bitmapMarcos).1.map entradaEn ++ List.replicate n entradaVacia) + c)
  escribir : ∀ (a : Almacen) (i : ℕ) (xs : List Byte) (c : Multiset EntradaTabla),
    i + xs.length ≤ cfg.tamMemoria → I a c →
      I { a with memoriaUsuario := escribirRango a.memoriaUsuario i xs } c

theorem conserva_InvEntradas (env : Entorno) : Conserva cfg env (InvEntradas cfg) where
  suspender := by
    intro r e c h
    exact inv_suspenderEntrada env.swap h
  desuspender := by
    intro r e c h
    exact inv_desuspenderPaso env.swap h
  liberar := by
    intro a e c h
    exact inv_liberarEntrada h
  olvidar := by
    intro a n c h
    have hs : slots (List.replicate n entradaVacia : List EntradaTabla) = 0 := by
      apply slots_fuera
      intro e he
      rw [List.eq_of_mem_replicate he]
      rfl
    refine ⟨h.memoria, h.bitmap, ?_, ?_, ?_⟩
    · simpa [marcos_vacias] using h.duenosMarcos
    · simpa [hs] using h.duenosSlots
    · intro e he
      exact h.exclusion e (Multiset.mem_add.mpr (.inr he))
  asignar := by
    intro a k n c hk h
    exact inv_asignar h (by simp) (propiedad_tomarMarcos h.duenosMarcos hk)
  escribir := by
    intro a i xs c hi h
    refine ⟨?_, h.bitmap, h.duenosMarcos, h.duenosSlots, h.exclusion⟩
    have hmem := h.memoria
    rw [length_escribirRango (by omega), hmem]

section Recorridos

variable {env : Entorno} {I : Almacen → Multiset EntradaTabla → Prop} {p : Proceso cfg}

theorem conserva_suspenderPaginas (hI : Conserva cfg env I) (h : I a (↑p.entradas + c)) :
    I (suspenderPaginas env a p).1 (↑(suspenderPaginas env a p).2.entradas + c) := by
  obtain ⟨h₁, h₂, -⟩ := suspenderPaginas_eq env a p
  rw [h₁, h₂]
  exact bucle_invariante (fun (r : Recorrido) es => I r.almacen es) hI.suspender h

theorem conserva_desuspenderPaginas (hI : Conserva cfg env I) (h : I a (↑p.entradas + c)) :
    I (desuspenderPaginas env a p).1 (↑(desuspenderPaginas env a p).2.entradas + c) := by
  obtain ⟨h₁, h₂, -⟩ := desuspenderPaginas_eq env a p
  rw [h₁, h₂]
  exact bucle_invariante (fun (r : Recorrido) es => I r.almacen es) hI.desuspender h

theorem conserva_liberarTablas (hI : Conserva cfg env I) (h : I a (↑p.entradas + c)) :
    I (liberarTablasProceso cfg a p.tablaNivel1) c := by
  have hb := bucle_invariante (f := fun a e => (liberarEntrada a e, entradaVacia)) I hI.liberar h
  rw [bucle_salida_constante, ← foldl_eq_bucle] at hb
  rw [liberarTablas_eq]
  exact hI.olvidar _ _ _ hb

end Recorridos

/-- The invariant of Memoria. -/
structure Invariante (m : Memoria cfg) : Prop where
  pids : (m.diccionarioProcesos.map Proceso.pid).Nodup
  formas : ∀ p ∈ m.diccionarioProcesos, p.BienFormado
  entradas : InvEntradas cfg m.almacen (todasEntradas m.diccionarioProcesos)

section Efectos

variable {env : Entorno} {I : Almacen → Multiset EntradaTabla → Prop} {m m' : Memoria cfg}
  {pet : Peticion}

theorem guardar_fresco {ps : List (Proceso cfg)} {p : Proceso cfg}
    (h : buscarProceso ps p.pid = none) : guardarProceso ps p = p :: ps := by
  unfold guardarProceso
  rw [List.filter_eq_self.mpr]
  intro q hq
  simpa using buscarProceso_none.mp h q hq

theorem pid_crearProceso (cfg : Config) (bits : List Bool) (pid tam : ℤ) (inst : List Instruccion) :
    (crearProceso cfg bits pid tam inst).1.pid = pid := by
  unfold crearProceso
  dsimp only
  split <;> rfl

/-- A property that survives the bodies of the walks survives every request. -/
theorem entradas_efecto (hI : Conserva cfg env I)
    (hn : (m.diccionarioProcesos.map Proceso.pid).Nodup)
    (h : I m.almacen (todasEntradas m.diccionarioProcesos)) (hfresco : PidFresco m pet)
    (hef : Efecto env m pet m') : I m'.almacen (todasEntradas m'.diccionarioProcesos) := by
  have htodas : procesos m' = procesos m →
      todasEntradas m'.diccionarioProcesos = todasEntradas m.diccionarioProcesos := by
    intro hp
    rw [← todasEntradas_soloSwap, ← todasEntradas_soloSwap m.diccionarioProcesos]
    exact congrArg _ hp
  cases hef with
  | quieto ha hp =>
    rw [htodas hp, ha]
    exact h
  | escritura hcopia hlargo ha hp =>
    rw [htodas hp, ha]
    obtain ⟨h₀, h₁, h₂⟩ := hcopia
    apply hI.escribir _ _ _ _ _ h
    simp only [List.length_take]
    omega
  | alta inst hcabe =>
    rename_i pid tam largo path
    obtain ⟨hbits, vacias, hfila⟩ := crearProceso_eq pid inst hcabe
    have hpid := pid_crearProceso cfg m.almacen.bitmapMarcos pid tam inst
    simp only [guardar_fresco (hpid.symm ▸ hfresco)]
    rw [todasEntradas_cons, hfila, hbits]
    apply hI.asignar _ _ _ _ _ h
    unfold paginasDadas
    unfold contarMarcosLibres at hcabe
    omega
  | baja hp =>
    exact conserva_liberarTablas hI (todasEntradas_separar hn hp ▸ h)
  | suspension hp =>
    obtain ⟨-, hpid⟩ := buscarProceso_some hp
    simp only [conPaginas, conProceso, conAlmacen]
    rw [todasEntradas_modificar hn hp ((suspenderPaginas_resto env _ _).1.trans hpid)]
    exact conserva_suspenderPaginas hI (todasEntradas_separar hn hp ▸ h)
  | desuspension hp hcabe =>
    obtain ⟨-, hpid⟩ := buscarProceso_some hp
    simp only [conPaginas, conProceso, conAlmacen]
    rw [todasEntradas_modificar hn hp ((desuspenderPaginas_resto env _ _).1.trans hpid)]
    exact conserva_desuspenderPaginas hI (todasEntradas_separar hn hp ▸ h)

theorem pids_efecto (hn : (m.diccionarioProcesos.map Proceso.pid).Nodup)
    (hfresco : PidFresco m pet) (hef : Efecto env m pet m') :
    (m'.diccionarioProcesos.map Proceso.pid).Nodup := by
  have higuales : procesos m' = procesos m →
      m'.diccionarioProcesos.map Proceso.pid = m.diccionarioProcesos.map Proceso.pid := by
    intro hp
    rw [← pids_soloSwap, ← pids_soloSwap m.diccionarioProcesos]
    exact congrArg _ hp
  cases hef with
  | quieto ha hp => exact (higuales hp).symm ▸ hn
  | escritura hcopia hlargo ha hp => exact (higuales hp).symm ▸ hn
  | alta inst hcabe =>
    rename_i pid tam largo path
    have hpid := pid_crearProceso cfg m.almacen.bitmapMarcos pid tam inst
    simp only [guardar_fresco (hpid.symm ▸ hfresco), List.map_cons, hpid, List.nodup_cons,
      List.mem_map, not_exists, not_and]
    exact ⟨buscarProceso_none.mp hfresco, hn⟩
  | baja hp => exact hn.sublist (List.filter_sublist.map _)
  | suspension hp =>
    simp only [conPaginas, conProceso, conAlmacen, pids_modificar]
    exact hn
  | desuspension hp hcabe =>
    simp only [conPaginas, conProceso, conAlmacen, pids_modificar]
    exact hn

theorem mem_modificar {Q : Proceso cfg → Prop} {ps : List (Proceso cfg)} {q : Proceso cfg}
    (hq : Q q)
    (h : ∀ p ∈ ps, Q p) : ∀ p ∈ modificarProceso ps q, Q p := by
  intro p hp
  obtain ⟨r, hr, rfl⟩ := List.mem_map.mp hp
  split
  · exact hq
  · exact h r hr

/-- What holds of every process survives a request when it does not read the metrics of the
accesses, a new process has it and moving pages keeps it. -/
theorem todos_efecto {Q : Proceso cfg → Prop}
    (hmetricas : ∀ p q : Proceso cfg, soloMetricasSwap p = soloMetricasSwap q → Q p → Q q)
    (halta : ∀ (pid tam : ℤ) (inst : List Instruccion),
      paginasRequeridas cfg tam ≤ contarMarcosLibres m.almacen.bitmapMarcos →
      Q (crearProceso cfg m.almacen.bitmapMarcos pid tam inst).1)
    (hsuspension : ∀ p : Proceso cfg, pet = .suspenderProceso p.pid → Q p →
      Q (suspenderPaginas env m.almacen p).2)
    (hdesuspension : ∀ p : Proceso cfg,
      contarPaginasEnSwap p.tablaNivel1 ≤ contarMarcosLibres m.almacen.bitmapMarcos → Q p →
      Q (desuspenderPaginas env m.almacen p).2)
    (h : ∀ p ∈ m.diccionarioProcesos, Q p) (hef : Efecto env m pet m') :
    ∀ p ∈ m'.diccionarioProcesos, Q p := by
  have higuales : procesos m' = procesos m → ∀ p ∈ m'.diccionarioProcesos, Q p := by
    intro hpr p hp
    have hmem : soloMetricasSwap p ∈ procesos m := hpr ▸ List.mem_map_of_mem hp
    obtain ⟨q, hq, hqp⟩ := List.mem_map.mp hmem
    exact hmetricas q p hqp (h q hq)
  cases hef with
  | quieto ha hp => exact higuales hp
  | escritura hcopia hlargo ha hp => exact higuales hp
  | alta inst hcabe =>
    intro p hp
    rcases List.mem_cons.mp hp with rfl | hp
    · exact halta _ _ inst hcabe
    · exact h p (List.mem_of_mem_filter hp)
  | baja hp =>
    intro p hpm
    exact h p (List.mem_of_mem_filter hpm)
  | suspension hp =>
    obtain ⟨hmem, rfl⟩ := buscarProceso_some hp
    exact mem_modificar (hsuspension _ rfl (h _ hmem)) h
  | desuspension hp hcabe =>
    exact mem_modificar (hdesuspension _ hcabe (h _ (buscarProceso_some hp).1)) h

theorem formas_efecto (h : ∀ p ∈ m.diccionarioProcesos, p.BienFormado)
    (hef : Efecto env m pet m') : ∀ p ∈ m'.diccionarioProcesos, p.BienFormado := by
  refine todos_efecto ?_ ?_ ?_ ?_ h hef
  · intro p q hqp hp t ht
    have htabla : p.tablaNivel1 = q.tablaNivel1 := congrArg (·.tablaNivel1) hqp
    exact hp t (htabla.trans ht)
  · intro pid tam inst _
    exact bienFormado_crearProceso _ _ _ _
  · intro p _ hp
    exact bienFormado_suspenderPaginas env _ hp
  · intro p _ hp
    exact bienFormado_desuspenderPaginas env _ hp

theorem invariante_efecto (h : Invariante m) (hfresco : PidFresco m pet)
    (hef : Efecto env m pet m') : Invariante m' where
  pids := pids_efecto h.pids hfresco hef
  formas := formas_efecto h.formas hef
  entradas := entradas_efecto (conserva_InvEntradas env) h.pids h.entradas hfresco hef

end Efectos

section Ejecuciones

theorem invariante_inicial : Invariante (inicial cfg) where
  pids := List.nodup_nil
  formas := by simp [inicial]
  entradas :=
    { memoria := by simp [inicial]
      bitmap := by simp [inicial]
      duenosMarcos := propiedad_vacia _
      duenosSlots := propiedad_cubre (propiedad_vacia _)
      exclusion := by simp [inicial, todasEntradas] }

theorem invariante_paso {P : Memoria cfg → Entorno → Peticion → Memoria cfg → Prop}
    {m m' : Memoria cfg} (h : Invariante m) (hp : Paso P m m') : Invariante m' := by
  obtain ⟨env, pet, envios, hfresco, hat, -⟩ := hp
  exact invariante_efecto h hfresco (efecto_de_atender h.pids hat)

theorem invariante_de_alcanzable {P : Memoria cfg → Entorno → Peticion → Memoria cfg → Prop}
    {m : Memoria cfg} (h : AlcanzableCon P m) : Invariante m :=
  alcanzable_invariante invariante_inicial (fun _ _ => invariante_paso) h

end Ejecuciones

end MemoriaInvariante
