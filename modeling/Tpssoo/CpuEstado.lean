import Tpssoo.MemoriaPeticiones

/-!
# The state of a CPU

TLB and page cache, and the requests that a CPU makes to Memoria. A table of a
non-positive configured size has no entries. `none` is undefined behaviour, here or in
the handler that should have answered.
-/
namespace CpuEstado

open EnterosC Protocolo MemoriaEstado MemoriaPeticiones

inductive AlgoritmoTlb where
  | lru | fifo | otro
  deriving DecidableEq, Repr

inductive AlgoritmoCache where
  | clock | clockM | otro
  deriving DecidableEq, Repr

/-- The configured algorithms, the readings of the clock in order, and the environment in
which Memoria answers. -/
structure Cpu where
  algoritmoTlb : AlgoritmoTlb
  algoritmoCache : AlgoritmoCache
  getTimestamp : ℕ → UInt64
  entorno : Entorno

structure EntradaTlb where
  ocupada : Bool
  pid : ℤ
  pagina : ℤ
  marco : ℤ
  timestamp : UInt64
  deriving DecidableEq, Repr

/-- `horas` counts the readings of the clock made so far. -/
structure Tlb where
  entradas : List EntradaTlb
  punteroFifo : ℕ
  horas : ℕ
  deriving DecidableEq, Repr

structure EntradaCache where
  ocupado : Bool
  pid : ℤ
  pagina : ℤ
  contenido : List Byte
  bitUso : Bool
  bitModificado : Bool
  marco : ℤ
  deriving DecidableEq, Repr

structure Cache where
  entradas : List EntradaCache
  puntero : ℕ
  deriving DecidableEq, Repr

variable {cfg : Config}

structure EstadoCpu (cfg : Config) where
  tlb : Tlb
  cache : Cache
  memoria : Memoria cfg

section Direcciones

def obtenerPagina (cfg : Config) (direccionLogica : ℤ) : ℤ := direccionLogica.tdiv cfg.tamPagina

def obtenerOffset (cfg : Config) (direccionLogica : ℤ) : ℤ := direccionLogica.tmod cfg.tamPagina

end Direcciones

section Pedidos

variable (cpu : Cpu) (m : Memoria cfg)

/-- The frame, or -1 when the answer is not `TRADUCCION_OK`. -/
def pedirTraduccionAMemoria (pid direccionLogica : ℤ) : Option (ℤ × Memoria cfg) := do
  let (envios, m') ← atenderPostHandshake cpu.entorno m (.traducirTabla pid direccionLogica)
  match envios with
  | [.paquete p] =>
    if p.codigoOperacion = OpCode.traduccionOk.codigo then
      let marcoRecibido ← leerInt p.buffer 8
      return (marcoRecibido, m')
    else return (-1, m')
  | _ => none

/-- The inner `none` is the null pointer returned on an error. -/
def leerBytesDeMemoriaPrincipal (marcoFisico offset tamanioALeer pid : ℤ) :
    Option (Option (List Byte) × Memoria cfg) := do
  let (envios, m') ←
    atenderPostHandshake cpu.entorno m (.leerMemoria pid marcoFisico offset tamanioALeer)
  match envios with
  | [.paquete p] =>
    if p.codigoOperacion ≠ OpCode.operacionLecturaOk.codigo then return (none, m')
    else if p.buffer = [] then return (none, m')
    else return (some p.buffer, m')
  | _ => none

/-- An error answer is only logged. -/
def escribirBytesEnMemoriaPrincipal (marcoFisico offset tamanioAEscribir : ℤ) (valor : List Byte)
    (pid : ℤ) : Option (Memoria cfg) := do
  let (envios, m') ← atenderPostHandshake cpu.entorno m
    (.escribirMemoria pid marcoFisico offset tamanioAEscribir (valor.take tamanioAEscribir.toNat))
  match envios with
  | [.paquete _] => return m'
  | _ => none

def enviarPaginaAMemoriaPrincipal (marcoFisico : ℤ) (contenidoPagina : List Byte) (pid : ℤ) :
    Option (Memoria cfg) :=
  escribirBytesEnMemoriaPrincipal cpu m marcoFisico 0 cfg.tamPagina contenidoPagina pid

end Pedidos

/-- FIFO and CLOCK, and a clock that counts its readings. -/
def cpuEjemplo : Cpu := ⟨.fifo, .clock, fun n => UInt64.ofNat n, entornoEjemplo⟩

end CpuEstado
