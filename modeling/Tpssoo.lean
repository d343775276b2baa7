import Tpssoo.RangosBytes
import Tpssoo.ArbolRadix
import Tpssoo.MapaDeBits
import Tpssoo.MemoriaMarcos
import Tpssoo.MemoriaAdmision
import Tpssoo.MemoriaRespuestas
import Tpssoo.MemoriaSlots
import Tpssoo.MemoriaPrivada
import Tpssoo.MemoriaFallos
import Tpssoo.CpuDesalojo
import Tpssoo.CpuProteccion
import Tpssoo.ProtocoloTramas
import Tpssoo.KernelSuspension
import Tpssoo.KernelCerrojo
import Tpssoo.KernelInterrupciones
import Tpssoo.KernelAdmision
import Tpssoo.KernelAsignacion
import Tpssoo.CpuTlbFifo
import Tpssoo.CpuTlbLru
import Tpssoo.CpuCacheClockM
import Tpssoo.CpuCacheClock
import Tpssoo.MemoriaArbol
import Tpssoo.MemoriaDesuspension
import Tpssoo.KernelMetricas
import Tpssoo.LectorBytes
import Tpssoo.ProtocoloMensajes
import Tpssoo.KernelTraspaso
import Tpssoo.KernelLlamadas
import Tpssoo.KernelBoletos
import Tpssoo.KernelDispositivos
import Tpssoo.KernelFlujos
import Tpssoo.KernelLugares
import Tpssoo.KernelPedidos
import Tpssoo.KernelUnLugar
import Tpssoo.KernelSolicitudes
import Tpssoo.PromedioExponencial
import Tpssoo.KernelEstimacion
import Tpssoo.KernelDesalojo
import Tpssoo.TurnoCircular
import Tpssoo.KernelDespachoIo
import Tpssoo.MemoriaLimites
import Tpssoo.MemoriaCargador
import Tpssoo.CpuFetch
import Tpssoo.ProtocoloRespuesta
import Tpssoo.MemoriaVolcado
import Tpssoo.KernelDesconexion
import Tpssoo.KernelDuraciones
import Tpssoo.MemoriaResidencia
import Tpssoo.KernelActivos
import Tpssoo.SistemaConjunto
import Tpssoo.SistemaResidencia
import Tpssoo.Cobertura
import Tpssoo.KernelRafagas
import Tpssoo.KernelSalientes
import Tpssoo.KernelSrt
import Tpssoo.KernelLlegadas
import Tpssoo.KernelDespachos
import Tpssoo.KernelPendientes
import Tpssoo.Bloques
import Tpssoo.CpuGiros
import Tpssoo.CpuPrivada
import Tpssoo.CpuBitacora
import Tpssoo.CpuAjena
import Tpssoo.MemoriaPropia
import Tpssoo.SistemaCpus
import Tpssoo.SistemaAislamiento
import Tpssoo.KernelGestor
import Tpssoo.SistemaTramites
import Tpssoo.SistemaAcuerdo
import Tpssoo.LineaCpu
import Tpssoo.KernelLineas
import Tpssoo.CpuSecuencia
import Tpssoo.KernelContadores
import Tpssoo.SistemaCompleto
import Tpssoo.SistemaPromesas
import Tpssoo.SistemaSecuencial
import Tpssoo.SistemaCreacion
import Tpssoo.SistemaTerminacion
