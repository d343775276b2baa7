import Tpssoo.EnterosC
import Tpssoo.RangosBytes

/-!
# Reading a record out of a buffer

A reader copies fields out of a buffer and advances an offset. `Lee r ys v` says that `r`
consumes exactly the bytes `ys` and returns `v`, wherever they stand in a larger buffer that
an `int` offset can reach, so that the statement for a record is put together from those of
its fields.
-/
namespace LectorBytes

open EnterosC RangosBytes

/-- Fails on a read outside the buffer. -/
abbrev Lector (α : Type) := ReaderT (List Byte) (StateT ℕ Option) α

variable {α β : Type} {xs ys zs : List Byte} {x : α} {y : β} {r : Lector α}

/-- What a reader returns from an offset, and the offset it stops at. -/
def leerDesde (r : Lector α) (xs : List Byte) (desde : ℕ) : Option (α × ℕ) := (r.run xs).run desde

section Campos

/-- An `int`. -/
def entero : Lector ℤ := fun xs desde => (leerInt xs desde).map fun x => (x, desde + 4)

/-- As many bytes as an `int` says. -/
def bytes (largo : ℤ) : Lector (List Byte) := fun xs desde =>
  if 0 ≤ largo ∧ (desde : ℤ) + largo ≤ xs.length then
    some (leerRango xs desde largo.toNat, desde + largo.toNat)
  else none

/-- The bit pattern of a `double`. -/
def doble : Lector UInt64 := fun xs desde =>
  if desde + 8 ≤ xs.length then
    some (UInt64.ofNat (natBytes (leerRango xs desde 8)), desde + 8)
  else none

/-- The offset moves with no read. -/
def saltar (largo : ℤ) : Lector Unit := fun _ desde =>
  if 0 ≤ (desde : ℤ) + largo then some ((), ((desde : ℤ) + largo).toNat) else none

theorem leerDesde_entero (xs : List Byte) (desde : ℕ) :
    leerDesde entero xs desde = (leerInt xs desde).map fun x => (x, desde + 4) := rfl

theorem leerDesde_bytes (largo : ℤ) (xs : List Byte) (desde : ℕ) :
    leerDesde (bytes largo) xs desde =
      if 0 ≤ largo ∧ (desde : ℤ) + largo ≤ xs.length then
        some (leerRango xs desde largo.toNat, desde + largo.toNat)
      else none := rfl

theorem leerDesde_doble (xs : List Byte) (desde : ℕ) :
    leerDesde doble xs desde =
      if desde + 8 ≤ xs.length then
        some (UInt64.ofNat (natBytes (leerRango xs desde 8)), desde + 8)
      else none := rfl

theorem leerDesde_saltar (largo : ℤ) (xs : List Byte) (desde : ℕ) :
    leerDesde (saltar largo) xs desde =
      if 0 ≤ (desde : ℤ) + largo then some ((), ((desde : ℤ) + largo).toNat) else none := rfl

def bytesDoble (d : UInt64) : List Byte := bytesNat 8 d.toNat

@[simp] theorem length_bytesDoble (d : UInt64) : (bytesDoble d).length = 8 := length_bytesNat 8 _

end Campos

section Reglas

/-- `r` reads `x` off exactly `ys`, whatever stands before and after. -/
def Lee (r : Lector α) (ys : List Byte) (x : α) : Prop :=
  ∀ antes despues, EsInt ((antes ++ ys).length : ℤ) →
    leerDesde r (antes ++ ys ++ despues) antes.length = some (x, antes.length + ys.length)

theorem leerDesde_bind (f : α → Lector β) (xs : List Byte) (desde : ℕ) :
    leerDesde (r >>= f) xs desde =
      (leerDesde r xs desde).bind fun (x, hasta) => leerDesde (f x) xs hasta := rfl

theorem lee_pure : Lee (pure x : Lector α) [] x := by
  intro antes despues _
  rfl

/-- Consecutive fields. -/
theorem lee_bind {f : α → Lector β} (hr : Lee r ys x) (hf : Lee (f x) zs y) :
    Lee (r >>= f) (ys ++ zs) y := by
  intro antes despues hcabe
  have hpartes : antes ++ (ys ++ zs) ++ despues = antes ++ ys ++ (zs ++ despues) := by
    simp only [List.append_assoc]
  have hjuntas : antes ++ ys ++ zs ++ despues = antes ++ ys ++ (zs ++ despues) := by
    simp only [List.append_assoc]
  rw [← List.append_assoc] at hcabe
  have hcorto : EsInt ((antes ++ ys).length : ℤ) := by
    obtain ⟨-, hmax⟩ := hcabe
    rw [List.length_append] at hmax
    constructor <;> omega
  have hprimero := hr antes (zs ++ despues) hcorto
  have hsegundo := hf (antes ++ ys) despues hcabe
  rw [hjuntas, List.length_append] at hsegundo
  rw [hpartes, List.length_append, ← Nat.add_assoc, leerDesde_bind, hprimero]
  exact hsegundo

/-- The last field. -/
theorem lee_fin {f : α → β} (hr : Lee r ys x) : Lee (r >>= fun a => pure (f a)) ys (f x) := by
  have h := lee_bind (f := fun a => pure (f a)) hr lee_pure
  rwa [List.append_nil] at h

/-- A buffer with nothing else in it is consumed whole. -/
theorem leerDesde_todo (h : Lee r ys x) (hcabe : EsInt (ys.length : ℤ)) :
    leerDesde r ys 0 = some (x, ys.length) := by
  have htodo := h [] [] hcabe
  rwa [List.nil_append, List.append_nil, List.length_nil, Nat.zero_add] at htodo

theorem lee_entero {n : ℤ} (h : EsInt n) : Lee entero (bytesInt n) n := by
  intro antes despues _
  have hint := leerInt_bytesInt antes despues n
  rw [aInt_eq h] at hint
  rw [leerDesde_entero, hint, length_bytesInt]
  rfl

theorem leerRango_medio (antes ys despues : List Byte) :
    leerRango (antes ++ ys ++ despues) antes.length ys.length = ys := by
  rw [leerRango, List.append_assoc, List.drop_left]
  exact List.take_left' rfl

theorem lee_bytes (ys : List Byte) : Lee (bytes ys.length) ys ys := by
  intro antes despues _
  have hcabe : 0 ≤ (ys.length : ℤ) ∧
      (antes.length : ℤ) + ys.length ≤ (antes ++ ys ++ despues).length := by
    simp only [List.length_append]
    omega
  rw [leerDesde_bytes, if_pos hcabe, Int.toNat_natCast, leerRango_medio]

theorem lee_doble (d : UInt64) : Lee doble (bytesDoble d) d := by
  intro antes despues _
  have hcabe : antes.length + 8 ≤ (antes ++ bytesDoble d ++ despues).length := by
    simp only [List.length_append, length_bytesDoble]
    omega
  have hmedio := leerRango_medio antes (bytesDoble d) despues
  rw [length_bytesDoble] at hmedio
  have hvalor : UInt64.ofNat (natBytes (bytesDoble d)) = d := by
    have hlt : d.toNat < 256 ^ 8 := d.toNat_lt
    rw [bytesDoble, natBytes_bytesNat, Nat.mod_eq_of_lt hlt, UInt64.ofNat_toNat]
  rw [leerDesde_doble, if_pos hcabe, hmedio, hvalor, length_bytesDoble]

theorem lee_saltar (ys : List Byte) : Lee (saltar ys.length) ys () := by
  intro antes despues _
  have hpos : 0 ≤ (antes.length : ℤ) + ys.length := by omega
  rw [leerDesde_saltar, if_pos hpos, ← Int.natCast_add, Int.toNat_natCast]

end Reglas

end LectorBytes
