import Tpssoo.EnterosC

/-!
# Operation codes and packets

The two enumerations of `global.h` share one number space: a packet carries the number
only, so a result code sent as an operation code is the operation with that number.
-/
namespace Protocolo

open EnterosC

inductive OpCode where
  | mensaje | handshake | handshakeKernelIo | handshakeMemoriaKernel | handshakeMemoriaCpu
  | handshakeCpuDispatch | handshakeCpuInterrupt | handshakeOk | handshakeTamMemoria
  | pedirInstrucciones | pedirEspacioLibre
  | pedidoIo | finalizoIo | desconectadoIo | procesoDesbloqueado
  | io | initProc | exit | dumpMemory
  | write | read | noop | goto
  | opPcb | opRespuestaEjecucion
  | procesoBloqueante | procesoInterrupcion
  | pedirContenido
  | traducirTabla | finalizarProceso | solicitarPaginas | liberarPaginas
  | leerMemoria | escribirMemoria | instruccionOk
  | errorPidNoEncontrado | errorPcFueraDeRango | procesoNoAlmacenado
  | traduccionOk | errorTraduccion | marcoNoPresente | noHayMarcosLibres
  | operacionLecturaOk | operacionEscrituraOk
  | errorFueraDePagina | paginaFueraDeRango | initProcesoOk
  | dispositivoIo | interrupcion | finalizacionOk
  | suspenderProceso | desuspenderProceso | suspensionOk | desuspensionOk
  | errorSwapFull | errorMemoriaInsuficiente
  | procesoBloqueanteIo | procesoBloqueanteDumpMemory
  | dumpOk | errorDump | errorSegFault
  deriving DecidableEq, Repr

inductive ResultadoEjecucion where
  | ejecucionOk | procesoBloqueado | procesoBloqueadoIo | procesoBloqueadoDumpMemory
  | procesoFinalizadoExit | errorEjecucionFatal | errorLecturaMemoria | errorEscrituraMemoria
  | segmentationFault
  deriving DecidableEq, Repr

/-- The number the C compiler gives to an enumerator. -/
def OpCode.codigo (c : OpCode) : ℕ := c.ctorIdx

def ResultadoEjecucion.codigo (r : ResultadoEjecucion) : ℕ := r.ctorIdx

structure Paquete where
  codigoOperacion : ℕ
  buffer : List Byte
  deriving DecidableEq, Repr

def crearPaquete (codigo : ℕ) : Paquete := ⟨codigo, []⟩

def agregarAPaquete (p : Paquete) (valor : List Byte) : Paquete :=
  { p with buffer := p.buffer ++ valor }

/-- What a handler puts on a socket: a packet through `enviar_paquete`, or bytes through a
bare `send`. -/
inductive Envio where
  | paquete (p : Paquete)
  | crudo (bytes : List Byte)
  deriving DecidableEq, Repr

/-- A reply with no payload. -/
def responder (codigo : ℕ) : List Envio := [.paquete (crearPaquete codigo)]

end Protocolo
