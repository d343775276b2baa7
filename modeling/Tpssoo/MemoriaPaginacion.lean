import Tpssoo.MemoriaSwap

/-!
# Page-table walks

The recursive functions over the page table of one process: assigning frames, releasing
them, moving pages to swap and back, counting and dumping them. Each is a walk of the
radix table with the body of its last-level loop.
-/
namespace MemoriaPaginacion

open EnterosC Bucles ArbolRadix RangosBytes MapaDeBits MemoriaEstado MemoriaSwap

variable {cfg : Config}

section Asignacion

/-- Frame bitmap and pages still to assign. -/
structure Asignacion where
  bitmapMarcos : List Bool
  restantes : ℕ
  deriving DecidableEq, Repr

def asignarEntrada (s : Asignacion) (e : EntradaTabla) : Bool × Asignacion × EntradaTabla :=
  if !e.presente then
    let nroMarco := buscarMarcoLibre s.bitmapMarcos
    if nroMarco = -1 then (false, s, e)
    else
      (true, ⟨ocuparMarco s.bitmapMarcos nroMarco, s.restantes - 1⟩,
        { e with numeroMarco := nroMarco, presente := true })
  else (true, s, e)

def asignarPaginasRecursivo (cfg : Config) (s : Asignacion)
    (t : Tabla EntradaTabla cfg.nivelesInferiores) :
    Bool × Asignacion × Tabla EntradaTabla cfg.nivelesInferiores :=
  poblar cfg.entradasPorTabla entradaVacia (fun s => 0 < s.restantes) asignarEntrada
    cfg.nivelesInferiores s t

def crearTablaPagina (cfg : Config) : Tabla EntradaTabla cfg.nivelesInferiores :=
  crear cfg.entradasPorTabla entradaVacia cfg.nivelesInferiores

end Asignacion

section Liberacion

def liberarEntrada (a : Almacen) (e : EntradaTabla) : Almacen :=
  if e.presente then { a with bitmapMarcos := liberarMarco a.bitmapMarcos e.numeroMarco }
  else if e.posicionSwap ≠ -1 then
    { a with bitmapSwap := liberarSlotSwap a.bitmapSwap e.posicionSwap }
  else a

def liberarTablasProceso (cfg : Config) (a : Almacen)
    (tabla : Option (Tabla EntradaTabla cfg.nivelesInferiores)) : Almacen :=
  match tabla with
  | none => a
  | some t => plegar liberarEntrada cfg.nivelesInferiores a t

end Liberacion

section Swap

/-- State threaded by the walks that move pages: the stores, the metrics of the process
and the number of swap calls made so far. -/
structure Recorrido where
  almacen : Almacen
  metricas : Metricas
  accesos : ℕ

variable (cfg) (swap : ℕ → AccesoSwap)

def suspenderEntrada (r : Recorrido) (e : EntradaTabla) : Recorrido × EntradaTabla :=
  if e.presente then
    let contenidoPagina := contenidoMarco cfg r.almacen.memoriaUsuario e.numeroMarco
    let (slotDestino, a) := escribirEnSwap cfg (swap r.accesos) r.almacen contenidoPagina
    if slotDestino = -1 then ({ r with almacen := a, accesos := r.accesos + 1 }, e)
    else
      ({ almacen := { a with bitmapMarcos := liberarMarco a.bitmapMarcos e.numeroMarco }
         metricas := { r.metricas with escriturasSwap := r.metricas.escriturasSwap + 1 }
         accesos := r.accesos + 1 },
        ⟨false, -1, slotDestino⟩)
  else (r, e)

def suspenderPaginasRecursivo (r : Recorrido) (t : Tabla EntradaTabla cfg.nivelesInferiores) :
    Recorrido × Tabla EntradaTabla cfg.nivelesInferiores :=
  recorrer (bucle (suspenderEntrada cfg swap)) cfg.nivelesInferiores r t

/-- The flag is false at the `return` of a full memory, which leaves this table only. -/
def desuspenderEntrada (r : Recorrido) (e : EntradaTabla) : Bool × Recorrido × EntradaTabla :=
  if e.enSwap then
    let marcoDestino := buscarMarcoLibre r.almacen.bitmapMarcos
    if marcoDestino = -1 then (false, r, e)
    else
      let leidos := leerDeSwap cfg (swap r.accesos) r.almacen.archivoSwap e.posicionSwap
      (true,
        { almacen :=
            { r.almacen with
              memoriaUsuario := escribirRango r.almacen.memoriaUsuario
                (marcoDestino * cfg.tamPagina).toNat leidos
              bitmapMarcos := ocuparMarco r.almacen.bitmapMarcos marcoDestino
              bitmapSwap := liberarSlotSwap r.almacen.bitmapSwap e.posicionSwap }
          metricas := { r.metricas with lecturasSwap := r.metricas.lecturasSwap + 1 }
          accesos := r.accesos + 1 },
        ⟨true, marcoDestino, -1⟩)
  else (true, r, e)

def desuspenderFila (r : Recorrido) (fila : List EntradaTabla) : Recorrido × List EntradaTabla :=
  (bucleMientras (fun _ => true) (desuspenderEntrada cfg swap) r fila).2

def desuspenderPaginasRecursivo (r : Recorrido) (t : Tabla EntradaTabla cfg.nivelesInferiores) :
    Recorrido × Tabla EntradaTabla cfg.nivelesInferiores :=
  recorrer (desuspenderFila cfg swap) cfg.nivelesInferiores r t

end Swap

section Conteo

def contarEntrada (b : EntradaTabla → Bool) (contador : ℕ) (e : EntradaTabla) : ℕ :=
  if b e then contador + 1 else contador

def contarPaginasEnSwap (tabla : Option (Tabla EntradaTabla cfg.nivelesInferiores)) : ℕ :=
  match tabla with
  | none => 0
  | some t => plegar (contarEntrada EntradaTabla.enSwap) cfg.nivelesInferiores 0 t

def contarPaginasPresentes (tabla : Option (Tabla EntradaTabla cfg.nivelesInferiores)) : ℕ :=
  match tabla with
  | none => 0
  | some t => plegar (contarEntrada EntradaTabla.presente) cfg.nivelesInferiores 0 t

end Conteo

section Volcado

variable (cfg) (swap : ℕ → AccesoSwap) (a : Almacen)

/-- Bytes written to the dump so far and swap calls made so far. -/
def dumpearEntrada (s : List Byte × ℕ) (e : EntradaTabla) : List Byte × ℕ :=
  if e.presente then (s.1 ++ contenidoMarco cfg a.memoriaUsuario e.numeroMarco, s.2)
  else if e.posicionSwap ≠ -1 then
    let bufferTemporal := (List.range cfg.tamPagina).map (swap s.2).bufferPrevio
    (s.1 ++ escribirRango bufferTemporal 0 (leerDeSwap cfg (swap s.2) a.archivoSwap e.posicionSwap),
      s.2 + 1)
  else s

def dumpearPaginasRecursivo (tabla : Option (Tabla EntradaTabla cfg.nivelesInferiores)) :
    List Byte :=
  match tabla with
  | none => []
  | some t => (plegar (dumpearEntrada cfg swap a) cfg.nivelesInferiores ([], 0) t).1

end Volcado

end MemoriaPaginacion
