import Tpssoo.MemoriaSlots

/-!
# Logical content of pages

The content of an assigned page is its frame when present and its swap slot otherwise.
The walks move a page between the two without changing its content, nor that of any other
page, as long as the calls on the swap file complete and the slot offsets fit in an int.
-/
namespace MemoriaContenido

open EnterosC Bucles RangosBytes MapaDeBits MemoriaEstado MemoriaSwap MemoriaPaginacion
  MemoriaTraduccion MemoriaPeticiones MemoriaFilas MemoriaEfectos MemoriaInvariante MemoriaMarcos

variable {cfg : Config} {a : Almacen} {e : EntradaTabla} {c es : Multiset EntradaTabla}
  {swap : ℕ → AccesoSwap} {r : Recorrido}

/-- The page that a slot of the swap file holds. -/
def contenidoSlot (cfg : Config) (archivo : List Byte) (slot : ℤ) : List Byte :=
  leerRango archivo (slot.toNat * cfg.tamPagina) cfg.tamPagina

def contenidoLogico (cfg : Config) (a : Almacen) (e : EntradaTabla) : Option (List Byte) :=
  if e.presente then some (contenidoMarco cfg a.memoriaUsuario e.numeroMarco)
  else if e.posicionSwap ≠ -1 then some (contenidoSlot cfg a.archivoSwap e.posicionSwap)
  else none

/-- The offset of a slot fits in an int. -/
def SlotCabe (cfg : Config) (slot : ℤ) : Prop := slot * cfg.tamPagina < 2 ^ 31

instance (slot : ℤ) : Decidable (SlotCabe cfg slot) := inferInstanceAs (Decidable (_ < _))

/-- The file reaches the end of a slot. -/
def EnArchivo (cfg : Config) (archivo : List Byte) (slot : ℤ) : Prop :=
  slot.toNat * cfg.tamPagina + cfg.tamPagina ≤ archivo.length

/-- Ownership, and a swap file that holds the slot of every page in it. -/
structure InvContenido (cfg : Config) (a : Almacen) (es : Multiset EntradaTabla) : Prop where
  base : InvEntradas cfg a es
  archivo : ∀ e ∈ es, e.posicionSwap ≠ -1 → EnArchivo cfg a.archivoSwap e.posicionSwap

section Vistas

theorem contenidoLogico_presente (h : e.presente = true) :
    contenidoLogico cfg a e = some (contenidoMarco cfg a.memoriaUsuario e.numeroMarco) := if_pos h

theorem contenidoLogico_enSwap (hp : e.presente = false) (hs : e.posicionSwap ≠ -1) :
    contenidoLogico cfg a e = some (contenidoSlot cfg a.archivoSwap e.posicionSwap) := by
  simp [contenidoLogico, hp, hs]

/-- The content of an entry depends on its frame or its slot only. -/
theorem contenidoLogico_congr {b : Almacen}
    (hm : e.presente = true → contenidoMarco cfg b.memoriaUsuario e.numeroMarco =
      contenidoMarco cfg a.memoriaUsuario e.numeroMarco)
    (hs : e.posicionSwap ≠ -1 → contenidoSlot cfg b.archivoSwap e.posicionSwap =
      contenidoSlot cfg a.archivoSwap e.posicionSwap) :
    contenidoLogico cfg b e = contenidoLogico cfg a e := by
  unfold contenidoLogico
  by_cases hp : e.presente = true
  · simp only [hp, if_true, hm hp]
  · by_cases hsw : e.posicionSwap = -1
    · simp [hp, hsw]
    · simp only [hp, if_false, ne_eq, hsw, not_false_eq_true, if_true, hs hsw, Bool.false_eq_true]

variable {i j : ℤ} {memoria xs : List Byte}

theorem length_contenidoMarco (hmem : memoria.length = cfg.tamMemoria)
    (hi : 0 ≤ i ∧ i < cfg.cantidadMarcos) : (contenidoMarco cfg memoria i).length =
    cfg.tamPagina := by
  obtain ⟨hptr, hdentro⟩ := puntero_marco cfg hi
  apply length_leerRango_of_le
  omega

theorem contenidoMarco_escribir_mismo (hmem : memoria.length = cfg.tamMemoria)
    (hi : 0 ≤ i ∧ i < cfg.cantidadMarcos) (hxs : xs.length = cfg.tamPagina) :
    contenidoMarco cfg (escribirRango memoria (i * cfg.tamPagina).toNat xs) i = xs := by
  obtain ⟨hptr, hdentro⟩ := puntero_marco cfg hi
  have hleer : leerRango (escribirRango memoria (i * cfg.tamPagina).toNat xs)
      (i * cfg.tamPagina).toNat xs.length = xs := leer_escribir_mismo (by omega)
  rwa [hxs] at hleer

theorem contenidoMarco_escribir_otro (hmem : memoria.length = cfg.tamMemoria)
    (hi : 0 ≤ i ∧ i < cfg.cantidadMarcos) (hj : 0 ≤ j ∧ j < cfg.cantidadMarcos)
    (hxs : xs.length = cfg.tamPagina) (hne : i ≠ j) :
    contenidoMarco cfg (escribirRango memoria (i * cfg.tamPagina).toNat xs) j =
      contenidoMarco cfg memoria j := by
  obtain ⟨hptr, hdentro⟩ := puntero_marco cfg hi
  obtain ⟨hptr', hdentro'⟩ := puntero_marco cfg hj
  have hnat : j.toNat ≠ i.toNat := by omega
  rw [contenidoMarco, contenidoMarco, hptr, hptr']
  apply leer_escribir_disjunto (by omega)
  rw [hxs]
  exact bloques_disjuntos hnat

end Vistas

section Suspender

/-- A call of `escribir_en_swap` that moves a page and harms no other: the file opens, or
it is created anew when no page is in it. -/
def EscrituraSana (cfg : Config) (acc : AccesoSwap) (es : Multiset EntradaTabla) : Prop :=
  cfg.tamPagina ≤ acc.transferidos ∧ (acc.abre = true ∨ acc.crea = true ∧ slots es = 0)

theorem escribe_de_sana {acc : AccesoSwap} (h : EscrituraSana cfg acc es) : acc.Escribe cfg :=
  ⟨h.1, h.2.imp_right And.left⟩

theorem sin_slots (h : slots es = 0) (he : e ∈ es) : e.posicionSwap = -1 := by
  by_contra hs
  have hmem : e.posicionSwap ∈ slots es := mem_slots.mpr ⟨e, he, hs, rfl⟩
  rw [h] at hmem
  exact Multiset.notMem_zero _ hmem

theorem slot_distinto (h : InvEntradas cfg a es) (he : e ∈ es) (hs : e.posicionSwap ≠ -1) :
    e.posicionSwap.toNat ≠ buscarSlotLibreSwap a.bitmapSwap := by
  intro heq
  have hocupado := h.duenosSlots.2 _ (mem_slots.mpr ⟨e, he, hs, rfl⟩)
  have hrango := ocupado_rango hocupado
  have hslot : e.posicionSwap = (buscarSlotLibreSwap a.bitmapSwap : ℤ) := by omega
  exact slot_libre a.bitmapSwap (hslot ▸ hocupado)

/-- What a sane call leaves in the file: the page in its slot, and every other slot in use
as it was. -/
theorem archivo_escribirEnSwap {acc : AccesoSwap} {xs : List Byte} (h : InvContenido cfg a es)
    (hacc : EscrituraSana cfg acc es) (hxs : xs.length = cfg.tamPagina)
    (hcabe : SlotCabe cfg (buscarSlotLibreSwap a.bitmapSwap)) :
    let b := (escribirEnSwap cfg acc a xs).2
    contenidoSlot cfg b.archivoSwap (buscarSlotLibreSwap a.bitmapSwap) = xs ∧
    EnArchivo cfg b.archivoSwap (buscarSlotLibreSwap a.bitmapSwap) ∧
    ∀ x ∈ es, x.posicionSwap ≠ -1 →
      contenidoSlot cfg b.archivoSwap x.posicionSwap =
          contenidoSlot cfg a.archivoSwap x.posicionSwap ∧
        EnArchivo cfg b.archivoSwap x.posicionSwap := by
  have harch := escribirEnSwap_completo (a := a) (escribe_de_sana hacc) hxs
  have hne : xs ≠ [] := by
    rintro rfl
    have := cfg.tamPagina_pos
    simp at hxs
    omega
  intro b
  have hb : b.archivoSwap = escribirArchivo (if acc.abre then a.archivoSwap else [])
      (buscarSlotLibreSwap a.bitmapSwap * cfg.tamPagina) xs := by
    rw [harch, posicionSlot_eq hcabe]
  have hlargo : b.archivoSwap.length = max (if acc.abre then a.archivoSwap else []).length
      (buscarSlotLibreSwap a.bitmapSwap * cfg.tamPagina + xs.length) := by
    rw [hb]
    exact length_escribirArchivo hne
  refine ⟨?_, ?_, ?_⟩
  · rw [hb, contenidoSlot, Int.toNat_natCast, ← hxs]
    exact leer_escribirArchivo_mismo
  · rw [EnArchivo, Int.toNat_natCast]
    omega
  · intro x hx hsw
    rcases hacc.2 with habre | ⟨-, hcero⟩
    · have hdentro := h.archivo x hx hsw
      unfold EnArchivo at hdentro ⊢
      simp only [habre, if_true] at hlargo hb
      refine ⟨?_, by omega⟩
      rw [hb]
      apply leer_escribirArchivo_otro hdentro
      rw [hxs]
      exact bloques_disjuntos (slot_distinto h.base hx hsw)
    · exact absurd (sin_slots hcero hx) hsw

/-- What the body does when its call writes the page. -/
theorem suspenderEntrada_escribe (hp : e.presente = true) (hacc : (swap r.accesos).Escribe cfg) :
    let s := suspenderEntrada cfg swap r e
    let escrito := escribirEnSwap cfg (swap r.accesos) r.almacen
      (contenidoMarco cfg r.almacen.memoriaUsuario e.numeroMarco)
    s.2 = ⟨false, -1, buscarSlotLibreSwap r.almacen.bitmapSwap⟩ ∧ s.1.accesos = r.accesos + 1 ∧
      s.1.almacen.memoriaUsuario = r.almacen.memoriaUsuario ∧
      s.1.almacen.archivoSwap = escrito.2.archivoSwap ∧
      s.1.almacen.bitmapSwap = ocupar (crecerBitmap (swap r.accesos) r.almacen.bitmapSwap
        (buscarSlotLibreSwap r.almacen.bitmapSwap)) (buscarSlotLibreSwap r.almacen.bitmapSwap) := by
  intro s escrito
  have hneg : escrito.1 ≠ -1 := by
    rw [ne_eq, escribirEnSwap_eq_neg_iff, not_not]
    exact hacc
  have hmem := (escribirEnSwap_memoria cfg (swap r.accesos) r.almacen
    (contenidoMarco cfg r.almacen.memoriaUsuario e.numeroMarco)).1
  rcases escribirEnSwap_slot cfg (swap r.accesos) r.almacen
    (contenidoMarco cfg r.almacen.memoriaUsuario e.numeroMarco) with ⟨hr, -⟩ | ⟨hr, hb⟩
  · exact absurd hr hneg
  · simp only [s, suspenderEntrada, hp, if_true]
    rw [if_neg hneg]
    exact ⟨by rw [hr], rfl, hmem, rfl, by rw [hb, hr]⟩

theorem suspenderEntrada_ausente (hp : e.presente = false) :
    suspenderEntrada cfg swap r e = (r, e) := by
  simp [suspenderEntrada, hp]

theorem contenido_suspenderEntrada (h : InvContenido cfg r.almacen (e ::ₘ c))
    (hacc : e.presente = true → EscrituraSana cfg (swap r.accesos) (e ::ₘ c))
    (hcabe : e.presente = true → SlotCabe cfg (buscarSlotLibreSwap r.almacen.bitmapSwap)) :
    InvContenido cfg (suspenderEntrada cfg swap r e).1.almacen
        ((suspenderEntrada cfg swap r e).2 ::ₘ c) ∧
      contenidoLogico cfg (suspenderEntrada cfg swap r e).1.almacen
        (suspenderEntrada cfg swap r e).2 = contenidoLogico cfg r.almacen e ∧
      ∀ x ∈ c, contenidoLogico cfg (suspenderEntrada cfg swap r e).1.almacen x =
        contenidoLogico cfg r.almacen x := by
  cases hp : e.presente with
  | false =>
    rw [suspenderEntrada_ausente hp]
    exact ⟨h, rfl, fun _ _ => rfl⟩
  | true =>
    have hbase := inv_suspenderEntrada swap h.base
    have hpag := length_contenidoMarco h.base.memoria
      (marco_rango h.base (Multiset.mem_cons_self e c) hp)
    obtain ⟨hmio, hlargo, hotros⟩ := archivo_escribirEnSwap h (hacc hp) hpag (hcabe hp)
    obtain ⟨hsale, -, hmem, harch, -⟩ := suspenderEntrada_escribe hp (escribe_de_sana (hacc hp))
    rw [hsale] at hbase ⊢
    refine ⟨⟨hbase, ?_⟩, ?_, ?_⟩
    · intro x hx hs
      rw [harch]
      rcases Multiset.mem_cons.mp hx with rfl | hx
      · exact hlargo
      · exact (hotros x (Multiset.mem_cons_of_mem hx) hs).2
    · have hneg : (buscarSlotLibreSwap r.almacen.bitmapSwap : ℤ) ≠ -1 := by omega
      rw [contenidoLogico_enSwap rfl hneg, contenidoLogico_presente hp, harch, hmio]
    · intro x hx
      apply contenidoLogico_congr
      · intro _
        rw [hmem]
      · intro hs
        rw [harch]
        exact (hotros x (Multiset.mem_cons_of_mem hx) hs).1

end Suspender

section Desuspender

/-- A call of `leer_de_swap` that reads the whole page. -/
abbrev LecturaSana (cfg : Config) (acc : AccesoSwap) : Prop := acc.Completo cfg

/-- A page that its slot gives back: the offset fits in an int and the file reaches its end. -/
def Guardada (cfg : Config) (archivo : List Byte) (e : EntradaTabla) : Prop :=
  SlotCabe cfg e.posicionSwap ∧ EnArchivo cfg archivo e.posicionSwap

theorem leerDeSwap_completo {acc : AccesoSwap} {archivo : List Byte} (h₀ : 0 ≤ e.posicionSwap)
    (hacc : LecturaSana cfg acc) (he : Guardada cfg archivo e) :
    leerDeSwap cfg acc archivo e.posicionSwap = contenidoSlot cfg archivo e.posicionSwap ∧
      (contenidoSlot cfg archivo e.posicionSwap).length = cfg.tamPagina := by
  obtain ⟨habre, hbytes⟩ := hacc
  obtain ⟨hcabe, hdentro⟩ := he
  have hpos : posicionSlot cfg e.posicionSwap = e.posicionSwap.toNat * cfg.tamPagina := by
    have hnat : ((e.posicionSwap.toNat : ℕ) : ℤ) = e.posicionSwap := Int.toNat_of_nonneg h₀
    rw [← posicionSlot_eq (hnat.symm ▸ hcabe), hnat]
  have hlargo : (contenidoSlot cfg archivo e.posicionSwap).length = cfg.tamPagina :=
    length_leerRango_of_le hdentro
  refine ⟨?_, hlargo⟩
  rw [leerDeSwap, if_pos habre, hpos]
  apply List.take_of_length_le
  exact hlargo.trans_le hbytes

theorem archivo_desuspenderPaso :
    (desuspenderPaso cfg swap r e).1.almacen.archivoSwap = r.almacen.archivoSwap := by
  unfold desuspenderPaso desuspenderEntrada
  split
  · simp only
    split <;> rfl
  · rfl

theorem desuspenderPaso_quieto
    (h : ¬ (e.enSwap = true ∧ buscarMarcoLibre r.almacen.bitmapMarcos ≠ -1)) :
    desuspenderPaso cfg swap r e = (r, e) := by
  unfold desuspenderPaso desuspenderEntrada
  by_cases hen : e.enSwap = true
  · have hlleno : buscarMarcoLibre r.almacen.bitmapMarcos = -1 := by
      by_contra hc
      exact h ⟨hen, hc⟩
    simp [hen, hlleno]
  · simp [hen]

theorem contenido_desuspenderPaso (h : InvEntradas cfg r.almacen (e ::ₘ c))
    (hacc : e.enSwap = true → LecturaSana cfg (swap r.accesos))
    (hent : e.enSwap = true → Guardada cfg r.almacen.archivoSwap e) :
    contenidoLogico cfg (desuspenderPaso cfg swap r e).1.almacen
        (desuspenderPaso cfg swap r e).2 = contenidoLogico cfg r.almacen e ∧
      ∀ x ∈ c, contenidoLogico cfg (desuspenderPaso cfg swap r e).1.almacen x =
        contenidoLogico cfg r.almacen x := by
  by_cases hmueve : e.enSwap = true ∧ buscarMarcoLibre r.almacen.bitmapMarcos ≠ -1
  · obtain ⟨hen, hlibre⟩ := hmueve
    obtain ⟨hp, hs⟩ : e.presente = false ∧ e.posicionSwap ≠ -1 := by
      simpa [EntradaTabla.enSwap] using hen
    obtain ⟨h₀, h₁, hno⟩ := marco_libre_rango hlibre
    have hslot := (slot_rango h (Multiset.mem_cons_self e c) hs).1
    obtain ⟨hleido, hlargo⟩ := leerDeSwap_completo hslot (hacc hen) (hent hen)
    have hdestino : 0 ≤ buscarMarcoLibre r.almacen.bitmapMarcos ∧
        buscarMarcoLibre r.almacen.bitmapMarcos < cfg.cantidadMarcos := ⟨h₀, h.bitmap ▸ h₁⟩
    simp only [desuspenderPaso, desuspenderEntrada, hen, if_true, hlibre, if_false, hleido]
    constructor
    · rw [contenidoLogico_presente rfl, contenidoLogico_enSwap hp hs]
      exact congrArg some (contenidoMarco_escribir_mismo h.memoria hdestino hlargo)
    · intro x hx
      apply contenidoLogico_congr
      · intro hpx
        have hx' := Multiset.mem_cons_of_mem (b := e) hx
        have hrango := marco_rango h hx' hpx
        refine contenidoMarco_escribir_otro h.memoria hdestino hrango hlargo ?_
        -- the destination is free and the frame of a present page is not
        intro heq
        exact hno (heq ▸ (h.duenosMarcos.2 _).mp (mem_marcos.mpr ⟨x, hx', hpx, rfl⟩))
      · intro _
        rfl
  · rw [desuspenderPaso_quieto hmueve]
    exact ⟨rfl, fun _ _ => rfl⟩

end Desuspender

section Recorridos

variable {row : List EntradaTabla}

/-- The slots that the next writing calls take: each time the first free one, in a bitmap
that grows. -/
def tomarSlots (swap : ℕ → AccesoSwap) : ℕ → ℕ → List Bool → List ℕ
  | _, 0, _ => []
  | n, k + 1, bits =>
    let slot := buscarSlotLibreSwap bits
    slot :: tomarSlots swap (n + 1) k (ocupar (crecerBitmap (swap n) bits slot) slot)

/-- Calls `desde`, …, `desde + cuantas - 1` are sane. Only the first of them may find no
page in the file. -/
def EscriturasSanas (cfg : Config) (swap : ℕ → AccesoSwap) (desde cuantas : ℕ)
    (es : Multiset EntradaTabla) : Prop :=
  ∀ n < cuantas, cfg.tamPagina ≤ (swap (desde + n)).transferidos ∧
    ((swap (desde + n)).abre = true ∨ (swap (desde + n)).crea = true ∧ n = 0 ∧ slots es = 0)

/-- What the rest of a suspension needs to keep every page. -/
structure SuspensionSana (cfg : Config) (swap : ℕ → AccesoSwap) (r : Recorrido)
    (row : List EntradaTabla) (c : Multiset EntradaTabla) : Prop where
  contenido : InvContenido cfg r.almacen (↑row + c)
  escrituras : EscriturasSanas cfg swap r.accesos (row.countP EntradaTabla.presente) (↑row + c)
  offsets : ∀ slot ∈ tomarSlots swap r.accesos (row.countP EntradaTabla.presente)
    r.almacen.bitmapSwap, SlotCabe cfg slot

theorem suspensionSana_paso (h : SuspensionSana cfg swap r (e :: row) c) :
    SuspensionSana cfg swap (suspenderEntrada cfg swap r e).1 row
        ((suspenderEntrada cfg swap r e).2 ::ₘ c) ∧
      contenidoLogico cfg (suspenderEntrada cfg swap r e).1.almacen
        (suspenderEntrada cfg swap r e).2 = contenidoLogico cfg r.almacen e ∧
      ∀ x ∈ (↑row + c : Multiset EntradaTabla),
        contenidoLogico cfg (suspenderEntrada cfg swap r e).1.almacen x =
          contenidoLogico cfg r.almacen x := by
  obtain ⟨hcont, hesc, hoff⟩ := h
  have hsep : (↑(e :: row) + c : Multiset EntradaTabla) = e ::ₘ (↑row + c) := by
    rw [← Multiset.cons_coe, Multiset.cons_add]
  rw [hsep] at hcont hesc
  cases hp : e.presente with
  | false =>
    have hcuenta : (e :: row).countP EntradaTabla.presente = row.countP EntradaTabla.presente := by
      simp [hp]
    rw [hcuenta] at hesc hoff
    rw [suspenderEntrada_ausente hp]
    refine ⟨⟨?_, ?_, hoff⟩, rfl, fun _ _ => rfl⟩
    · rwa [Multiset.add_cons]
    · rwa [Multiset.add_cons]
  | true =>
    have hcuenta : (e :: row).countP EntradaTabla.presente =
        row.countP EntradaTabla.presente + 1 := by
      simp [hp]
    rw [hcuenta] at hesc hoff
    have hsana : EscrituraSana cfg (swap r.accesos) (e ::ₘ (↑row + c)) := by
      obtain ⟨hbytes, habre⟩ := hesc 0 (Nat.zero_lt_succ _)
      exact ⟨hbytes, habre.imp_right fun hcrea => ⟨hcrea.1, hcrea.2.2⟩⟩
    have hcabe : SlotCabe cfg (buscarSlotLibreSwap r.almacen.bitmapSwap) :=
      hoff _ List.mem_cons_self
    obtain ⟨hinv, hmia, hotras⟩ := contenido_suspenderEntrada hcont (fun _ => hsana) fun _ => hcabe
    obtain ⟨-, hacc, -, -, hbits⟩ := suspenderEntrada_escribe hp (escribe_de_sana hsana)
    refine ⟨⟨?_, ?_, ?_⟩, hmia, hotras⟩
    · rwa [Multiset.add_cons]
    · intro n hn
      obtain ⟨hbytes, habre⟩ := hesc (n + 1) (by omega)
      rw [hacc, Nat.add_assoc, Nat.add_comm 1 n]
      refine ⟨hbytes, Or.inl ?_⟩
      rcases habre with habre | ⟨-, hcero, -⟩
      · exact habre
      · omega
    · intro slot hslot
      rw [hacc, hbits] at hslot
      exact hoff slot (List.mem_cons_of_mem _ hslot)

theorem contenido_suspenderTodo (h : SuspensionSana cfg swap r row c) :
    let s := suspenderTodo cfg swap r row
    InvContenido cfg s.1.almacen (↑s.2 + c) ∧
      s.2.map (contenidoLogico cfg s.1.almacen) = row.map (contenidoLogico cfg r.almacen) ∧
      ∀ e ∈ c, contenidoLogico cfg s.1.almacen e = contenidoLogico cfg r.almacen e := by
  obtain ⟨hinv, hvistas⟩ := bucle_marco (SuspensionSana cfg swap)
    (fun r => contenidoLogico cfg r.almacen) (fun _ _ _ _ hs => suspensionSana_paso hs) h
  have hcont := hinv.contenido
  rw [Multiset.coe_nil, Multiset.zero_add] at hcont
  exact ⟨hcont, hvistas⟩

/-- The slots that the calls of a walk take are those of the pages it moves. -/
theorem tomarSlots_salen
    (h : ∀ n < row.countP EntradaTabla.presente, (swap (r.accesos + n)).Escribe cfg) :
    ∀ slot ∈ tomarSlots swap r.accesos (row.countP EntradaTabla.presente) r.almacen.bitmapSwap,
      ∃ e ∈ (suspenderTodo cfg swap r row).2, e.posicionSwap = slot := by
  induction row generalizing r with
  | nil => simp [tomarSlots]
  | cons e row ih =>
    intro slot hslot
    rw [List.countP_cons] at h hslot
    simp only [suspenderTodo, bucle, List.mem_cons, exists_eq_or_imp]
    cases hp : e.presente with
    | false =>
      simp only [hp, Bool.false_eq_true, if_false, Nat.add_zero] at h hslot
      rw [suspenderEntrada_ausente hp]
      exact Or.inr (ih h slot hslot)
    | true =>
      simp only [hp, if_true] at h hslot
      obtain ⟨hsale, hacc, -, -, hbits⟩ := suspenderEntrada_escribe hp (h 0 (Nat.zero_lt_succ _))
      rcases List.mem_cons.mp hslot with rfl | hslot
      · left
        rw [hsale]
      · right
        apply ih _ slot
        · rwa [hacc, hbits]
        · intro n hn
          rw [hacc, Nat.add_assoc, Nat.add_comm 1 n]
          exact h (n + 1) (by omega)

/-- What the rest of a desuspension needs to keep every page. -/
structure DesuspensionSana (cfg : Config) (swap : ℕ → AccesoSwap) (archivo : List Byte)
    (r : Recorrido) (row : List EntradaTabla) (c : Multiset EntradaTabla) : Prop where
  base : InvEntradas cfg r.almacen (↑row + c)
  mismo : r.almacen.archivoSwap = archivo
  lecturas : ∀ n < row.countP EntradaTabla.enSwap, LecturaSana cfg (swap (r.accesos + n))
  guardadas : ∀ e ∈ row, e.enSwap = true → Guardada cfg archivo e

theorem accesos_desuspenderPaso (cfg : Config) (swap : ℕ → AccesoSwap) (r : Recorrido)
    (e : EntradaTabla) :
    (desuspenderPaso cfg swap r e).1.accesos = r.accesos ∨
      e.enSwap = true ∧ (desuspenderPaso cfg swap r e).1.accesos = r.accesos + 1 := by
  by_cases hmueve : e.enSwap = true ∧ buscarMarcoLibre r.almacen.bitmapMarcos ≠ -1
  · refine Or.inr ⟨hmueve.1, ?_⟩
    simp [desuspenderPaso, desuspenderEntrada, hmueve]
  · rw [desuspenderPaso_quieto hmueve]
    exact Or.inl rfl

theorem desuspensionSana_paso {archivo : List Byte}
    (h : DesuspensionSana cfg swap archivo r (e :: row) c) :
    DesuspensionSana cfg swap archivo (desuspenderPaso cfg swap r e).1 row
        ((desuspenderPaso cfg swap r e).2 ::ₘ c) ∧
      contenidoLogico cfg (desuspenderPaso cfg swap r e).1.almacen
        (desuspenderPaso cfg swap r e).2 = contenidoLogico cfg r.almacen e ∧
      ∀ x ∈ (↑row + c : Multiset EntradaTabla),
        contenidoLogico cfg (desuspenderPaso cfg swap r e).1.almacen x =
          contenidoLogico cfg r.almacen x := by
  obtain ⟨hbase, hmismo, hlec, hguar⟩ := h
  have hsep : (↑(e :: row) + c : Multiset EntradaTabla) = e ::ₘ (↑row + c) := by
    rw [← Multiset.cons_coe, Multiset.cons_add]
  rw [hsep] at hbase
  refine ⟨⟨?_, archivo_desuspenderPaso.trans hmismo, ?_, ?_⟩, ?_⟩
  · rw [Multiset.add_cons]
    exact inv_desuspenderPaso swap hbase
  · intro n hn
    rw [List.countP_cons] at hlec
    rcases accesos_desuspenderPaso cfg swap r e with hacc | ⟨hen, hacc⟩
    · rw [hacc]
      exact hlec n (by omega)
    · rw [hacc, Nat.add_assoc, Nat.add_comm 1 n]
      exact hlec (n + 1) (by simp only [hen, if_true]; omega)
  · intro x hx
    exact hguar x (List.mem_cons_of_mem e hx)
  · apply contenido_desuspenderPaso hbase
    · intro hen
      exact hlec 0 (by simp [hen])
    · intro hen
      rw [hmismo]
      exact hguar e List.mem_cons_self hen

/-- Coming back gives no page a slot. -/
theorem mem_desuspenderTodo {x : EntradaTabla} (hx : x ∈ (desuspenderTodo cfg swap r row).2) :
    x.posicionSwap = -1 ∨ x ∈ row := by
  induction row generalizing r with
  | nil => cases hx
  | cons e row ih =>
    simp only [desuspenderTodo, bucle, List.mem_cons] at hx ⊢
    rcases hx with rfl | hx
    · by_cases hmueve : e.enSwap = true ∧ buscarMarcoLibre r.almacen.bitmapMarcos ≠ -1
      · simp [desuspenderPaso, desuspenderEntrada, hmueve]
      · simp [desuspenderPaso_quieto hmueve]
    · exact (ih hx).imp_right Or.inr

theorem contenido_desuspenderTodo {archivo : List Byte}
    (h : DesuspensionSana cfg swap archivo r row c) :
    let s := desuspenderTodo cfg swap r row
    s.1.almacen.archivoSwap = archivo ∧
      s.2.map (contenidoLogico cfg s.1.almacen) = row.map (contenidoLogico cfg r.almacen) ∧
      ∀ e ∈ c, contenidoLogico cfg s.1.almacen e = contenidoLogico cfg r.almacen e := by
  obtain ⟨hinv, hvistas⟩ := bucle_marco (DesuspensionSana cfg swap archivo)
    (fun r => contenidoLogico cfg r.almacen) (fun _ _ _ _ hs => desuspensionSana_paso hs) h
  exact ⟨hinv.mismo, hvistas⟩

end Recorridos

section Paginas

variable {m m' : Memoria cfg} {p q : Proceso cfg} {pid : ℤ} {k : ℕ}

/-- The content of page `k` of a live process, when it is assigned. -/
def paginaLogica (m : Memoria cfg) (pid : ℤ) (k : ℕ) : Option (List Byte) :=
  (buscarProceso m.diccionarioProcesos pid).bind fun p =>
    (p.entradas[k]?).bind (contenidoLogico cfg m.almacen)

theorem paginaLogica_eq (h : buscarProceso m.diccionarioProcesos pid = some p) :
    paginaLogica m pid k = (p.entradas.map (contenidoLogico cfg m.almacen))[k]?.join := by
  rw [paginaLogica, h, Option.bind_some, List.getElem?_map]
  cases p.entradas[k]? <;> rfl

theorem buscarProceso_modificar (ps : List (Proceso cfg)) (q : Proceso cfg) (pid : ℤ) :
    buscarProceso (modificarProceso ps q) pid =
      (buscarProceso ps pid).map fun r => if r.pid = q.pid then q else r := by
  rw [buscarProceso, modificarProceso, List.find?_map]
  congr 2
  funext r
  by_cases hr : r.pid = q.pid <;> simp [hr]

theorem mem_quitar (h : buscarProceso m.diccionarioProcesos pid = some p) {otro : ℤ}
    (hne : pid ≠ otro) (he : e ∈ p.entradas) :
    e ∈ todasEntradas (quitarProceso m.diccionarioProcesos otro) := by
  obtain ⟨hmem, hpid⟩ := buscarProceso_some h
  refine List.mem_flatMap.mpr ⟨p, List.mem_filter.mpr ⟨hmem, ?_⟩, he⟩
  simpa [hpid] using hne

/-- A walk that moves the pages of one process and keeps every view keeps every page. -/
theorem paginaLogica_conPaginas {s : Almacen × Proceso cfg}
    (hp : buscarProceso m.diccionarioProcesos pid = some p) (hq : s.2.pid = p.pid)
    (hfila : s.2.entradas.map (contenidoLogico cfg s.1) =
      p.entradas.map (contenidoLogico cfg m.almacen))
    (hotras : ∀ e ∈ todasEntradas (quitarProceso m.diccionarioProcesos pid),
      contenidoLogico cfg s.1 e = contenidoLogico cfg m.almacen e) (otro : ℤ) (k : ℕ) :
    paginaLogica (conPaginas m s) otro k = paginaLogica m otro k := by
  have hbusca : buscarProceso (conPaginas m s).diccionarioProcesos otro =
      (buscarProceso m.diccionarioProcesos otro).map fun r => if r.pid = s.2.pid then s.2 else r :=
    buscarProceso_modificar _ _ _
  have hpid := (buscarProceso_some hp).2
  cases hr : buscarProceso m.diccionarioProcesos otro with
  | none =>
    rw [hr] at hbusca
    rw [paginaLogica, paginaLogica, hbusca, hr]
    rfl
  | some r =>
    obtain ⟨-, hrpid⟩ := buscarProceso_some hr
    rw [hr, Option.map_some] at hbusca
    rw [paginaLogica_eq hbusca, paginaLogica_eq hr]
    by_cases heq : otro = pid
    · subst heq
      have hpr : r = p := Option.some.inj (hr.symm.trans hp)
      have hmismo : r.pid = s.2.pid := by omega
      rw [if_pos hmismo, hpr]
      exact congrArg (fun vs => vs[k]?.join) hfila
    · have hotro : r.pid ≠ s.2.pid := by omega
      rw [if_neg hotro]
      have hvistas : r.entradas.map (contenidoLogico cfg s.1) =
          r.entradas.map (contenidoLogico cfg m.almacen) :=
        List.map_congr_left fun e he => hotras e (mem_quitar hr heq he)
      exact congrArg (fun vs => vs[k]?.join) hvistas

/-- States with the same stores, up to bitmaps, show the same pages of a process they share. -/
theorem paginaLogica_congr (hmem : m'.almacen.memoriaUsuario = m.almacen.memoriaUsuario)
    (harch : m'.almacen.archivoSwap = m.almacen.archivoSwap)
    (hp : buscarProceso m.diccionarioProcesos pid = some p)
    (hq : buscarProceso m'.diccionarioProcesos pid = some q) (hpq : q.entradas = p.entradas) :
    paginaLogica m' pid k = paginaLogica m pid k := by
  have hvista : contenidoLogico cfg m'.almacen = contenidoLogico cfg m.almacen := by
    funext e
    apply contenidoLogico_congr
    · intro _
      rw [hmem]
    · intro _
      rw [harch]
  rw [paginaLogica_eq hp, paginaLogica_eq hq, hvista, hpq]

end Paginas

end MemoriaContenido
