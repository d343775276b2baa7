import Tpssoo.MemoriaEstado

/-!
# Swap file

`escribir_en_swap`, `leer_de_swap` and the slot bitmap. What the file operations of one
call do is an `AccesoSwap`: whether each `fopen` succeeds, how many bytes `fread` or
`fwrite` transfers, and the bits that `realloc` adds to the bitmap.
-/
namespace MemoriaSwap

open EnterosC RangosBytes MapaDeBits MemoriaEstado

structure AccesoSwap where
  abre : Bool
  crea : Bool
  transferidos : ℕ
  bitsNuevos : ℕ → Bool
  bufferPrevio : ℕ → Byte

/-- The file operations of the call succeed: the first `fopen`, and the whole transfer. -/
def AccesoSwap.Completo (acc : AccesoSwap) (cfg : Config) : Prop :=
  acc.abre = true ∧ cfg.tamPagina ≤ acc.transferidos

/-- A call of `escribir_en_swap` that puts the whole page in a file. -/
def AccesoSwap.Escribe (acc : AccesoSwap) (cfg : Config) : Prop :=
  cfg.tamPagina ≤ acc.transferidos ∧ (acc.abre = true ∨ acc.crea = true)

variable {cfg : Config}

section Marcos

def buscarMarcoLibre (bits : List Bool) : ℤ :=
  if primerLibre bits < bits.length then primerLibre bits else -1

abbrev ocuparMarco (bits : List Bool) (nroMarco : ℤ) : List Bool := ocupar bits nroMarco

abbrev liberarMarco (bits : List Bool) (nroMarco : ℤ) : List Bool := liberar bits nroMarco

abbrev contarMarcosLibres (bits : List Bool) : ℕ := bits.count false

/-- The page a pointer to a frame denotes. -/
def contenidoMarco (cfg : Config) (memoria : List Byte) (marco : ℤ) : List Byte :=
  leerRango memoria (marco * cfg.tamPagina).toNat cfg.tamPagina

end Marcos

section Archivo

abbrev buscarSlotLibreSwap (bits : List Bool) : ℕ := primerLibre bits

/-- Position after `fseek` to a slot: an offset that overflowed to a negative value is
refused and the position stays at the start. -/
def posicionSlot (cfg : Config) (slot : ℤ) : ℕ := (aInt (slot * cfg.tamPagina)).toNat

/-- `fwrite` at a position; a gap past the end of the file is filled with zeros. -/
def escribirArchivo (archivo : List Byte) (posicion : ℕ) (xs : List Byte) : List Byte :=
  if xs = [] then archivo
  else escribirRango (archivo ++ List.replicate (posicion - archivo.length) 0) posicion xs

/-- The `realloc` of the bitmap: whole bytes, the new ones with any bits. -/
def crecerBitmap (acc : AccesoSwap) (bits : List Bool) (slot : ℕ) : List Bool :=
  if bits.length ≤ slot then
    bits ++ (List.range (8 * (slot / 8 + 1) - bits.length)).map acc.bitsNuevos
  else bits

def escribirEnSwap (cfg : Config) (acc : AccesoSwap) (a : Almacen) (contenidoPagina : List Byte) :
    ℤ × Almacen :=
  let slotLibre := buscarSlotLibreSwap a.bitmapSwap
  if acc.abre || acc.crea then
    -- "w+b" truncates the file
    let archivo := if acc.abre then a.archivoSwap else []
    let escritos := min acc.transferidos cfg.tamPagina
    let archivo' := escribirArchivo archivo (posicionSlot cfg slotLibre)
      (contenidoPagina.take escritos)
    if escritos ≠ cfg.tamPagina then (-1, { a with archivoSwap := archivo' })
    else
      (slotLibre,
        { a with
          archivoSwap := archivo'
          bitmapSwap := ocupar (crecerBitmap acc a.bitmapSwap slotLibre) slotLibre })
  else (-1, a)

abbrev liberarSlotSwap (bits : List Bool) (slot : ℤ) : List Bool := liberar bits slot

/-- The bytes `leer_de_swap` puts at the start of its destination. -/
def leerDeSwap (cfg : Config) (acc : AccesoSwap) (archivo : List Byte) (slotSwap : ℤ) : List Byte :=
  if acc.abre then
    (leerRango archivo (posicionSlot cfg slotSwap) cfg.tamPagina).take acc.transferidos
  else []

end Archivo

section Reglas

theorem buscarMarcoLibre_eq {bits : List Bool} (h : 0 < bits.count false) :
    buscarMarcoLibre bits = primerLibre bits := if_pos (primerLibre_lt_iff.mpr h)

theorem buscarMarcoLibre_lleno {bits : List Bool} (h : bits.count false = 0) :
    buscarMarcoLibre bits = -1 := by
  refine if_neg fun hlt => ?_
  have := primerLibre_lt_iff.mp hlt
  omega

theorem buscarMarcoLibre_eq_neg_iff {bits : List Bool} :
    buscarMarcoLibre bits = -1 ↔ bits.count false = 0 := by
  constructor
  · intro h
    by_contra hc
    rw [buscarMarcoLibre_eq (Nat.pos_of_ne_zero hc)] at h
    omega
  · exact buscarMarcoLibre_lleno

theorem marco_libre_rango {bits : List Bool} (h : buscarMarcoLibre bits ≠ -1) :
    0 ≤ buscarMarcoLibre bits ∧ buscarMarcoLibre bits < bits.length ∧
      ¬ Ocupado bits (buscarMarcoLibre bits) := by
  have hc : 0 < bits.count false :=
    Nat.pos_of_ne_zero fun hc => h (buscarMarcoLibre_lleno hc)
  rw [buscarMarcoLibre_eq hc]
  have := primerLibre_lt_iff.mpr hc
  exact ⟨by omega, by omega, not_ocupado_primerLibre bits⟩

theorem count_ocuparMarco {bits : List Bool} (h : buscarMarcoLibre bits ≠ -1) :
    (ocuparMarco bits (buscarMarcoLibre bits)).count false + 1 = bits.count false := by
  have hc : 0 < bits.count false :=
    Nat.pos_of_ne_zero fun hc => h (buscarMarcoLibre_lleno hc)
  have hlt := primerLibre_lt_iff.mpr hc
  have hrango : (0 : ℤ) ≤ primerLibre bits ∧ (primerLibre bits : ℤ) < bits.length := by omega
  have hbit : bits[primerLibre bits] = false := List.getElem_idxOf hlt
  unfold ocuparMarco ocupar
  rw [buscarMarcoLibre_eq hc, if_pos hrango, Int.toNat_natCast, List.count_set hlt, hbit]
  simp
  omega

theorem escribirEnSwap_memoria (cfg : Config) (acc : AccesoSwap) (a : Almacen) (xs : List Byte) :
    (escribirEnSwap cfg acc a xs).2.memoriaUsuario = a.memoriaUsuario ∧
      (escribirEnSwap cfg acc a xs).2.bitmapMarcos = a.bitmapMarcos := by
  unfold escribirEnSwap
  split
  · simp only
    split <;> exact ⟨rfl, rfl⟩
  · exact ⟨rfl, rfl⟩

/-- A call either reports failure and leaves the slot bitmap alone, or reports the first
free slot and marks it, in a bitmap that may have grown. -/
theorem escribirEnSwap_slot (cfg : Config) (acc : AccesoSwap) (a : Almacen) (xs : List Byte) :
    let r := escribirEnSwap cfg acc a xs
    (r.1 = -1 ∧ r.2.bitmapSwap = a.bitmapSwap) ∨
      (r.1 = buscarSlotLibreSwap a.bitmapSwap ∧ r.2.bitmapSwap =
        ocupar (crecerBitmap acc a.bitmapSwap (buscarSlotLibreSwap a.bitmapSwap)) r.1) := by
  simp only [escribirEnSwap]
  split
  · split
    · exact Or.inl ⟨rfl, rfl⟩
    · exact Or.inr ⟨rfl, rfl⟩
  · exact Or.inl ⟨rfl, rfl⟩

theorem escribirEnSwap_eq_neg_iff {acc : AccesoSwap} {a : Almacen} {xs : List Byte} :
    (escribirEnSwap cfg acc a xs).1 = -1 ↔ ¬ acc.Escribe cfg := by
  unfold AccesoSwap.Escribe escribirEnSwap
  by_cases habre : (acc.abre || acc.crea) = true
  · have habre' : acc.abre = true ∨ acc.crea = true := by simpa using habre
    by_cases hbytes : cfg.tamPagina ≤ acc.transferidos
    · simp [habre, habre', hbytes]
    · have hmin : min acc.transferidos cfg.tamPagina ≠ cfg.tamPagina := by omega
      simp [habre, habre', hbytes]
  · have habre' : ¬ (acc.abre = true ∨ acc.crea = true) := by simpa using habre
    simp [habre, habre']

/-- A call that puts the page in the file puts it in the first free slot. -/
theorem escribirEnSwap_completo {acc : AccesoSwap} {a : Almacen} {xs : List Byte}
    (hacc : acc.Escribe cfg) (hlargo : xs.length = cfg.tamPagina) :
    (escribirEnSwap cfg acc a xs).2.archivoSwap =
      escribirArchivo (if acc.abre then a.archivoSwap else [])
        (posicionSlot cfg (buscarSlotLibreSwap a.bitmapSwap)) xs := by
  obtain ⟨hbytes, habre⟩ := hacc
  have hmin : min acc.transferidos cfg.tamPagina = cfg.tamPagina := by omega
  have htake : xs.take cfg.tamPagina = xs := List.take_of_length_le (by omega)
  have habre' : (acc.abre || acc.crea) = true := by simpa using habre
  simp only [escribirEnSwap, hmin, htake, habre', if_true, ne_eq, not_true, if_false]

theorem posicionSlot_eq {slot : ℕ} (h : (slot : ℤ) * cfg.tamPagina < 2 ^ 31) :
    posicionSlot cfg slot = slot * cfg.tamPagina := by
  have hpos : 0 ≤ (slot : ℤ) * cfg.tamPagina :=
    Int.mul_nonneg (Int.natCast_nonneg _) (Int.natCast_nonneg _)
  have hint : EsInt ((slot : ℤ) * cfg.tamPagina) := ⟨by omega, h⟩
  rw [posicionSlot, aInt_eq hint, ← Int.natCast_mul, Int.toNat_natCast]

section EscribirArchivo

variable {archivo xs : List Byte} {i j n : ℕ}

theorem length_escribirArchivo (hxs : xs ≠ []) :
    (escribirArchivo archivo i xs).length = max archivo.length (i + xs.length) := by
  rw [escribirArchivo, if_neg hxs, escribirRango]
  simp only [List.length_append, List.length_take, List.length_drop, List.length_replicate]
  omega

theorem leer_escribirArchivo_mismo : leerRango (escribirArchivo archivo i xs) i xs.length = xs := by
  by_cases hxs : xs = []
  · simp [hxs, leerRango]
  · rw [escribirArchivo, if_neg hxs]
    apply leer_escribir_mismo
    simp only [List.length_append, List.length_replicate]
    omega

theorem leer_escribirArchivo_otro (hdentro : j + n ≤ archivo.length)
    (hd : j + n ≤ i ∨ i + xs.length ≤ j) :
    leerRango (escribirArchivo archivo i xs) j n = leerRango archivo j n := by
  by_cases hxs : xs = []
  · simp [hxs, escribirArchivo]
  · rw [escribirArchivo, if_neg hxs, leer_escribir_disjunto _ hd, leer_append hdentro]
    simp only [List.length_append, List.length_replicate]
    omega

end EscribirArchivo

theorem slot_en_bitmap_crecido (acc : AccesoSwap) (bits : List Bool) :
    buscarSlotLibreSwap bits < (crecerBitmap acc bits (buscarSlotLibreSwap bits)).length := by
  unfold crecerBitmap
  split
  · simp only [List.length_append, List.length_map, List.length_range]
    omega
  · omega

theorem slot_libre (bits : List Bool) : ¬ Ocupado bits (buscarSlotLibreSwap bits) :=
  not_ocupado_primerLibre bits

theorem cubre_crecerBitmap {bits : List Bool} {duenos : Multiset ℤ} (acc : AccesoSwap) (slot : ℕ)
    (h : Cubre bits duenos) : Cubre (crecerBitmap acc bits slot) duenos := by
  unfold crecerBitmap
  split
  · exact cubre_append _ h
  · exact h

end Reglas

end MemoriaSwap
