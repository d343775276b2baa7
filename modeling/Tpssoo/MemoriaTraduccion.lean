import Tpssoo.MemoriaPaginacion

/-!
# Address translation and physical accesses

`obtener_indice_de_pagina`, the descent of `manejar_traduccion_tabla`, and the bounds
tests of `leer_memoria_fisica` and `escribir_memoria_fisica`. `none` is undefined
behaviour: a shift by 32 bits or more, or a copy outside a buffer.
-/
namespace MemoriaTraduccion

open EnterosC ArbolRadix RangosBytes MemoriaEstado

section Traduccion

variable (cfg : Config)

def obtenerIndiceDePagina (numeroPagina nivelActual : ℕ) : Option ℕ :=
  let bitsDeNivelesInferiores := (cfg.cantidadNiveles - nivelActual) * cfg.bitsPorNivel
  if bitsDeNivelesInferiores < 32 then
    some ((numeroPagina >>> bitsDeNivelesInferiores) &&& cfg.mascaraNivel)
  else none

/-- The loop over the levels, from the one with `n` levels below it. The outer `none` is
undefined behaviour, the inner one the exit with `ERROR_TRADUCCION`. -/
def recorrerNiveles (numeroPagina : ℕ) :
    (n : ℕ) → Option (Tabla EntradaTabla n) → Option (Option EntradaTabla)
  | 0, tabla => do
    let indice ← obtenerIndiceDePagina cfg numeroPagina cfg.cantidadNiveles
    let entradas : Option (List EntradaTabla) := tabla
    return entradas.bind (·[indice]?)
  | n + 1, tabla => do
    let indice ← obtenerIndiceDePagina cfg numeroPagina (cfg.cantidadNiveles - (n + 1))
    let entradas : Option (List (Option (Tabla EntradaTabla n))) := tabla
    match entradas.bind (·[indice]?) with
    | none => return none
    | some siguienteNivel => recorrerNiveles numeroPagina n siguienteNivel

inductive ResultadoTraduccion where
  | paginaFueraDeRango
  | errorTraduccion
  | marcoNoPresente
  | traduccionOk (marco : ℤ)
  deriving DecidableEq, Repr

variable {cfg}

def totalPaginas (p : Proceso cfg) : ℤ :=
  (aInt (p.tamProceso + cfg.tamPagina - 1)).tdiv cfg.tamPagina

/-- The range check of the translator. -/
def Acepta (p : Proceso cfg) (direccionLogica : ℤ) : Prop :=
  direccionLogica.tdiv cfg.tamPagina < totalPaginas p ∧ 0 ≤ direccionLogica

instance (p : Proceso cfg) (dl : ℤ) : Decidable (Acepta p dl) :=
  inferInstanceAs (Decidable (_ ∧ _))

/-- The answer for the entry that the loop over the levels reached. -/
def resultadoDeEntrada : Option EntradaTabla → ResultadoTraduccion
  | none => .errorTraduccion
  | some e => if e.presente then .traduccionOk e.numeroMarco else .marcoNoPresente

def traducir (p : Proceso cfg) (direccionLogica : ℤ) : Option ResultadoTraduccion :=
  if Acepta p direccionLogica then
    (recorrerNiveles cfg (direccionLogica.tdiv cfg.tamPagina).toNat cfg.nivelesInferiores
      p.tablaNivel1).map resultadoDeEntrada
  else some .paginaFueraDeRango

end Traduccion

section Fisica

variable (cfg : Config)

def direccionFisica (marcoFisico offset : ℤ) : ℤ :=
    aInt (aInt (marcoFisico * cfg.tamPagina) + offset)

/-- The bounds test shared by both accesses. -/
def FueraDeLimites (direccion tamanio : ℤ) : Prop :=
  direccion < 0 ∨ (cfg.tamMemoria : ℤ) < aInt (direccion + tamanio)

instance (d t : ℤ) : Decidable (FueraDeLimites cfg d t) := inferInstanceAs (Decidable (_ ∨ _))

/-- A `memcpy` of `tamanio` bytes at `direccion` stays inside user memory. -/
def CopiaValida (direccion tamanio : ℤ) : Prop :=
  0 ≤ direccion ∧ 0 ≤ tamanio ∧ direccion + tamanio ≤ cfg.tamMemoria

instance (d t : ℤ) : Decidable (CopiaValida cfg d t) := inferInstanceAs (Decidable (_ ∧ _))

/-- The inner `none` is the null pointer returned on an error. -/
def leerMemoriaFisica (memoriaUsuario : List Byte) (direccion tamanio : ℤ) :
    Option (Option (List Byte)) :=
  if FueraDeLimites cfg direccion tamanio then some none
  -- `malloc` refuses the huge request a negative size turns into
  else if aInt (tamanio + 1) < 0 then some none
  else if CopiaValida cfg direccion tamanio then
    some (some (leerRango memoriaUsuario direccion.toNat tamanio.toNat))
  else none

def escribirMemoriaFisica (memoriaUsuario : List Byte) (direccion : ℤ) (valor : List Byte)
    (tamanio : ℤ) : Option (Option (List Byte)) :=
  if FueraDeLimites cfg direccion tamanio then some none
  else if CopiaValida cfg direccion tamanio then
    some (some (escribirRango memoriaUsuario direccion.toNat valor))
  else none

end Fisica

section Reglas

variable {cfg : Config}

theorem indice_eq (numeroPagina : ℕ) {k : ℕ} (hk : k < cfg.cantidadNiveles)
    (hbits : k * cfg.bitsPorNivel < 32) :
    obtenerIndiceDePagina cfg numeroPagina (cfg.cantidadNiveles - k) =
      some (numeroPagina / cfg.entradasPorTabla ^ k % cfg.entradasPorTabla) := by
  have hsub : cfg.cantidadNiveles - (cfg.cantidadNiveles - k) = k := by omega
  have hmasc : cfg.mascaraNivel = 2 ^ cfg.bitsPorNivel - 1 := by
    rw [Config.mascaraNivel, Nat.one_shiftLeft]
  rw [obtenerIndiceDePagina, hsub, if_pos hbits, hmasc, Nat.and_two_pow_sub_one_eq_mod,
    Nat.shiftRight_eq_div_pow, cfg.entradas_eq, ← pow_mul, Nat.mul_comm cfg.bitsPorNivel k]

theorem indice_indefinido {numeroPagina k : ℕ} (hk : k < cfg.cantidadNiveles)
    (hbits : 32 ≤ k * cfg.bitsPorNivel) :
    obtenerIndiceDePagina cfg numeroPagina (cfg.cantidadNiveles - k) = none := by
  have hsub : cfg.cantidadNiveles - (cfg.cantidadNiveles - k) = k := by omega
  rw [obtenerIndiceDePagina, hsub, if_neg (by omega)]

/-- The digits of a page number in base `ENTRADAS_POR_TABLA`. -/
def digito (cfg : Config) (numeroPagina k : ℕ) : ℕ :=
  numeroPagina / cfg.entradasPorTabla ^ k % cfg.entradasPorTabla

/-- While every shift is defined, the loop over the levels is the descent by digits. -/
theorem recorrerNiveles_eq {numeroPagina : ℕ} {n : ℕ} (hn : n < cfg.cantidadNiveles)
    (hbits : n * cfg.bitsPorNivel < 32) (tabla : Option (Tabla EntradaTabla n)) :
    recorrerNiveles cfg numeroPagina n tabla =
      some (tabla.bind (buscar (digito cfg numeroPagina) n)) := by
  induction n with
  | zero =>
    have hi := indice_eq numeroPagina hn hbits
    rw [Nat.sub_zero] at hi
    simp only [recorrerNiveles, hi]
    rfl
  | succ n ih =>
    have hle : n * cfg.bitsPorNivel ≤ (n + 1) * cfg.bitsPorNivel :=
      Nat.mul_le_mul_right _ (Nat.le_succ n)
    have ih' := ih (Nat.lt_of_succ_lt hn) (by omega)
    simp only [recorrerNiveles, indice_eq numeroPagina hn hbits]
    cases tabla with
    | none => rfl
    | some t =>
      change List (Option (Tabla EntradaTabla n)) at t
      change _ = some (buscar (digito cfg numeroPagina) (n + 1) t)
      rw [buscar_succ]
      change (match t[digito cfg numeroPagina (n + 1)]? with
        | none => some none
        | some sig => recorrerNiveles cfg numeroPagina n sig) = _
      cases t[digito cfg numeroPagina (n + 1)]? with
      | none => rfl
      | some sig =>
        simp only [ih' sig]
        cases sig <;> rfl

theorem recorrerNiveles_indefinido {numeroPagina n : ℕ} (hn : n < cfg.cantidadNiveles)
    (hbits : 32 ≤ n * cfg.bitsPorNivel) (tabla : Option (Tabla EntradaTabla n)) :
    recorrerNiveles cfg numeroPagina n tabla = none := by
  cases n with
  | zero => omega
  | succ n =>
    simp only [recorrerNiveles, indice_indefinido hn hbits]
    rfl

end Reglas

end MemoriaTraduccion
