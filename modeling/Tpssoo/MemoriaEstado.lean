import Tpssoo.ArbolRadix
import Tpssoo.MapaDeBits
import Tpssoo.RangosBytes
import Tpssoo.Protocolo
import Mathlib.Data.Nat.Log

/-!
# The state of Memoria

Configuration as `main` accepts it, page-table entries, processes, and the four stores
they index: user memory, its frame bitmap, the swap file and its slot bitmap.
-/
namespace MemoriaEstado

open EnterosC Protocolo ArbolRadix

/-- The values read from the configuration file. -/
structure ConfigArchivo where
  puertoEscucha : Option (List Byte)
  tamMemoria : ℤ
  tamPagina : ℤ
  pathInstrucciones : Option (List Byte)
  cantidadNiveles : ℤ
  entradasPorTabla : ℤ

/-- A configuration that passed the checks of `main`. -/
structure Config where
  pathInstrucciones : List Byte
  tamMemoria : ℕ
  tamPagina : ℕ
  cantidadNiveles : ℕ
  entradasPorTabla : ℕ
  tamMemoria_pos : 0 < tamMemoria
  tamMemoria_int : tamMemoria < 2 ^ 31
  tamPagina_pos : 0 < tamPagina
  tamPagina_int : tamPagina < 2 ^ 31
  cantidadNiveles_pos : 0 < cantidadNiveles
  entradasPorTabla_pos : 0 < entradasPorTabla
  entradasPorTabla_int : entradasPorTabla < 2 ^ 31
  memoria_multiplo : tamMemoria % tamPagina = 0
  entradas_potencia : entradasPorTabla &&& (entradasPorTabla - 1) = 0
  pagina_potencia : tamPagina &&& (tamPagina - 1) = 0

/-- The checks of `main` on the four sizes. -/
def Dimensiones (tam pag niveles entradas : ℕ) : Prop :=
  (0 < tam ∧ tam < 2 ^ 31) ∧ (0 < pag ∧ pag < 2 ^ 31) ∧ 0 < niveles ∧
    (0 < entradas ∧ entradas < 2 ^ 31) ∧ tam % pag = 0 ∧ entradas &&& (entradas - 1) = 0 ∧
    pag &&& (pag - 1) = 0

instance (tam pag niveles entradas : ℕ) : Decidable (Dimensiones tam pag niveles entradas) :=
  inferInstanceAs (Decidable (_ ∧ _))

def crearConfig (path : List Byte) (tam pag niveles entradas : ℕ)
    (h : Dimensiones tam pag niveles entradas) : Config where
  pathInstrucciones := path
  tamMemoria := tam
  tamPagina := pag
  cantidadNiveles := niveles
  entradasPorTabla := entradas
  tamMemoria_pos := h.1.1
  tamMemoria_int := h.1.2
  tamPagina_pos := h.2.1.1
  tamPagina_int := h.2.1.2
  cantidadNiveles_pos := h.2.2.1
  entradasPorTabla_pos := h.2.2.2.1.1
  entradasPorTabla_int := h.2.2.2.1.2
  memoria_multiplo := h.2.2.2.2.1
  entradas_potencia := h.2.2.2.2.2.1
  pagina_potencia := h.2.2.2.2.2.2

theorem dimensiones_aInt {tam pag niveles entradas : ℤ}
    (hpos : 0 < aInt tam ∧ 0 < aInt pag ∧ 0 < aInt niveles ∧ 0 < aInt entradas)
    (hmul : (aInt tam).toNat % (aInt pag).toNat = 0)
    (hent : (aInt entradas).toNat &&& ((aInt entradas).toNat - 1) = 0)
    (hpag : (aInt pag).toNat &&& ((aInt pag).toNat - 1) = 0) :
    Dimensiones (aInt tam).toNat (aInt pag).toNat (aInt niveles).toNat
      (aInt entradas).toNat := by
  obtain ⟨ht, hp, hn, he⟩ := hpos
  have hrango : ∀ {x : ℤ}, 0 < aInt x → 0 < (aInt x).toNat ∧ (aInt x).toNat < 2 ^ 31 := by
    intro x hx
    have hint := (esInt_aInt x).2
    constructor <;> omega
  exact ⟨hrango ht, hrango hp, (hrango hn).1, hrango he, hmul, hent, hpag⟩

/-- The checks of `main`, in its order. -/
def validarConfig (c : ConfigArchivo) : Option Config :=
  let tamMemoria := aInt c.tamMemoria
  let tamPagina := aInt c.tamPagina
  let cantidadNiveles := aInt c.cantidadNiveles
  let entradasPorTabla := aInt c.entradasPorTabla
  match c.puertoEscucha, c.pathInstrucciones with
  | some _, some path =>
    if hpos : 0 < tamMemoria ∧ 0 < tamPagina ∧ 0 < cantidadNiveles ∧ 0 < entradasPorTabla then
      if hmul : tamMemoria.toNat % tamPagina.toNat = 0 then
        if hent : entradasPorTabla.toNat &&& (entradasPorTabla.toNat - 1) = 0 then
          if hpag : tamPagina.toNat &&& (tamPagina.toNat - 1) = 0 then
            some (crearConfig path tamMemoria.toNat tamPagina.toNat cantidadNiveles.toNat
              entradasPorTabla.toNat (dimensiones_aInt hpos hmul hent hpag))
          else none
        else none
      else none
    else none
  | _, _ => none

namespace Config

variable (cfg : Config)

def cantidadMarcos : ℕ := cfg.tamMemoria / cfg.tamPagina

def bitsPorNivel : ℕ := cfg.entradasPorTabla.log2

def mascaraNivel : ℕ := (1 <<< cfg.bitsPorNivel) - 1

/-- Levels of the page table below the root. -/
def nivelesInferiores : ℕ := cfg.cantidadNiveles - 1

/-- Pages that the page table of one process can address. -/
def paginasDireccionables : ℕ := cfg.entradasPorTabla ^ cfg.cantidadNiveles

theorem entradas_eq : cfg.entradasPorTabla = 2 ^ cfg.bitsPorNivel := by
  obtain ⟨k, hk⟩ := (Nat.and_sub_one_eq_zero_iff_isPowerOfTwo cfg.entradasPorTabla_pos.ne').mp
    cfg.entradas_potencia
  rw [bitsPorNivel, hk, Nat.log2_two_pow]

theorem pagina_potencia_menor : ∃ b < 31, cfg.tamPagina = 2 ^ b := by
  obtain ⟨b, hb⟩ := (Nat.and_sub_one_eq_zero_iff_isPowerOfTwo cfg.tamPagina_pos.ne').mp
    cfg.pagina_potencia
  have hcota := cfg.tamPagina_int
  rw [hb] at hcota
  exact ⟨b, (Nat.pow_lt_pow_iff_right (by decide)).mp hcota, hb⟩

theorem pagina_divide : cfg.tamPagina ∣ 2 ^ 31 := by
  obtain ⟨b, hb, htam⟩ := cfg.pagina_potencia_menor
  rw [htam]
  exact Nat.pow_dvd_pow 2 (Nat.le_of_lt hb)

theorem marcos_mul : cfg.cantidadMarcos * cfg.tamPagina = cfg.tamMemoria :=
  Nat.div_mul_cancel (Nat.dvd_of_mod_eq_zero cfg.memoria_multiplo)

theorem marco_dentro {m : ℕ} (h : m < cfg.cantidadMarcos) :
    m * cfg.tamPagina + cfg.tamPagina ≤ cfg.tamMemoria := by
  rw [← cfg.marcos_mul]
  exact RangosBytes.bloque_dentro h

theorem niveles_eq : cfg.nivelesInferiores + 1 = cfg.cantidadNiveles :=
  Nat.succ_pred_eq_of_pos cfg.cantidadNiveles_pos

end Config

/-- A last-level page-table entry. -/
structure EntradaTabla where
  presente : Bool
  numeroMarco : ℤ
  posicionSwap : ℤ
  deriving DecidableEq, Repr

def entradaVacia : EntradaTabla := ⟨false, -1, -1⟩

structure Metricas where
  accesosTablaPaginas : ℤ
  instruccionesSolicitadas : ℤ
  escriturasSwap : ℤ
  lecturasSwap : ℤ
  lecturasMemoria : ℤ
  escriturasMemoria : ℤ
  deriving DecidableEq, Repr

def Metricas.cero : Metricas := ⟨0, 0, 0, 0, 0, 0⟩

/-- A token of a program line as the loader cuts it: part of a 300-byte buffer, without
blanks or terminators. -/
def EsToken (xs : List Byte) : Prop := xs ≠ [] ∧ xs.length < 300 ∧ ∀ b ∈ xs, b ≠ 0 ∧ b ≠ 32

abbrev Token := {xs : List Byte // EsToken xs}

def MAX_PARAMETROS : ℕ := 3

structure Instruccion where
  opcode : Token
  parametros : List Token
  cantidad_le : parametros.length ≤ MAX_PARAMETROS

structure Proceso (cfg : Config) where
  pid : ℤ
  tablaNivel1 : Option (Tabla EntradaTabla cfg.nivelesInferiores)
  instrucciones : List Instruccion
  tamProceso : ℤ
  paginasAsignadas : ℤ
  metricas : Metricas

/-- The stores that page-table entries index. -/
structure Almacen where
  memoriaUsuario : List Byte
  bitmapMarcos : List Bool
  bitmapSwap : List Bool
  archivoSwap : List Byte
  deriving DecidableEq, Repr

structure Memoria (cfg : Config) where
  almacen : Almacen
  diccionarioProcesos : List (Proceso cfg)
  volcados : List (ℤ × List Byte)

variable {cfg : Config}

/-- The state when `main` starts to serve. -/
def inicial (cfg : Config) : Memoria cfg where
  almacen :=
    { memoriaUsuario := List.replicate cfg.tamMemoria 0
      bitmapMarcos := List.replicate cfg.cantidadMarcos false
      bitmapSwap := List.replicate 8 false
      archivoSwap := [] }
  diccionarioProcesos := []
  volcados := []

section Diccionario

/-- `dictionary_get` under the decimal text of a PID, which is injective. -/
def buscarProceso (ps : List (Proceso cfg)) (pid : ℤ) : Option (Proceso cfg) :=
  ps.find? fun p => p.pid == pid

/-- `dictionary_put`: the element under the same key, if any, is replaced. -/
def guardarProceso (ps : List (Proceso cfg)) (p : Proceso cfg) : List (Proceso cfg) :=
  p :: ps.filter fun q => q.pid != p.pid

def quitarProceso (ps : List (Proceso cfg)) (pid : ℤ) : List (Proceso cfg) :=
  ps.filter fun q => q.pid != pid

/-- The handlers update a process through the pointer they got. -/
def modificarProceso (ps : List (Proceso cfg)) (p : Proceso cfg) : List (Proceso cfg) :=
  ps.map fun q => if q.pid = p.pid then p else q

end Diccionario

section Vistas

/-- The last-level entries of a process in page order. -/
def Proceso.entradas (p : Proceso cfg) : List EntradaTabla :=
  match p.tablaNivel1 with
  | none => []
  | some t => aplanar cfg.entradasPorTabla entradaVacia cfg.nivelesInferiores t

/-- Every table of the process has its configured number of entries. -/
def Proceso.BienFormado (p : Proceso cfg) : Prop :=
  ∀ t, p.tablaNivel1 = some t → Forma cfg.entradasPorTabla cfg.nivelesInferiores t

/-- All last-level entries of all live processes. -/
def todasEntradas (ps : List (Proceso cfg)) : List EntradaTabla := ps.flatMap Proceso.entradas

def EntradaTabla.enSwap (e : EntradaTabla) : Bool := !e.presente && e.posicionSwap != -1

def EntradaTabla.asignada (e : EntradaTabla) : Bool := e.presente || e.posicionSwap != -1

/-- Frames held by the present entries of a multiset of entries. -/
def marcos (es : Multiset EntradaTabla) : Multiset ℤ :=
  (es.filter fun e => e.presente = true).map EntradaTabla.numeroMarco

/-- Slots named by the entries of a multiset, present or not. -/
def slots (es : Multiset EntradaTabla) : Multiset ℤ :=
  (es.filter fun e => e.posicionSwap ≠ -1).map EntradaTabla.posicionSwap

@[simp] theorem entradaVacia_presente : entradaVacia.presente = false := rfl

@[simp] theorem entradaVacia_posicionSwap : entradaVacia.posicionSwap = -1 := rfl

end Vistas

end MemoriaEstado
