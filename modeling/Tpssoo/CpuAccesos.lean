import Tpssoo.CpuTlb
import Tpssoo.CpuCache

/-!
# READ and WRITE

The two instructions that access memory, with the order of lookups of the source: READ
asks the cache, then the TLB, then Memoria; WRITE asks the TLB only when there is no
cache.
-/
namespace CpuAccesos

open EnterosC RangosBytes MemoriaEstado MemoriaPeticiones CpuEstado CpuTlb CpuCache

variable {cfg : Config}

/-- How an access ends: with the bytes it read, or in a segmentation fault. -/
inductive Resultado where
  | hecho (datos : List Byte)
  | segmentationFault
  deriving DecidableEq, Repr

/-- A `memcpy` between a page buffer and a variable: inside the buffer, or undefined. -/
def EnPagina (cfg : Config) (offset tamanio : ℤ) : Prop :=
  0 ≤ offset ∧ 0 ≤ tamanio ∧ offset + tamanio ≤ cfg.tamPagina

instance (offset tamanio : ℤ) : Decidable (EnPagina cfg offset tamanio) :=
  inferInstanceAs (Decidable (_ ∧ _))

def copiarDePagina (cfg : Config) (pagina : List Byte) (offset tamanio : ℤ) : Option (List Byte) :=
  if EnPagina cfg offset tamanio then some (leerRango pagina offset.toNat tamanio.toNat) else none

def copiarAPagina (cfg : Config) (pagina : List Byte) (offset tamanio : ℤ) (datos : List Byte) :
    Option (List Byte) :=
  if EnPagina cfg offset tamanio then some (escribirRango pagina offset.toNat
    (datos.take tamanio.toNat))
  else none

theorem length_copiarAPagina {pagina contenido datos : List Byte} {offset tamanio : ℤ}
    (hp : pagina.length = cfg.tamPagina)
    (h : copiarAPagina cfg pagina offset tamanio datos = some contenido) :
    contenido.length = cfg.tamPagina := by
  rw [copiarAPagina] at h
  split at h
  · rename_i hen
    obtain ⟨h₀, h₁, h₂⟩ := hen
    have hcorta : (datos.take tamanio.toNat).length ≤ tamanio.toNat := List.length_take_le _ _
    cases h
    rw [length_escribirRango]
    · exact hp
    · omega
  · cases h

/-- The test of both instructions, on an int sum. -/
def ExcedeLimite (cfg : Config) (direccionLogica tamanio : ℤ) : Prop :=
  (cfg.tamPagina : ℤ) < aInt (obtenerOffset cfg direccionLogica + tamanio)

instance (dl tamanio : ℤ) : Decidable (ExcedeLimite cfg dl tamanio) :=
  inferInstanceAs (Decidable (_ < _))

/-- An instruction that accesses memory, with its parameters as ints and bytes. -/
inductive Acceso where
  | read (direccionLogica tamanio : ℤ)
  | write (direccionLogica : ℤ) (datos : List Byte)
  deriving DecidableEq, Repr

def Acceso.direccionLogica : Acceso → ℤ
  | .read dl _ => dl
  | .write dl _ => dl

/-- The size parameter, or the `strlen` of the data as an int. -/
def Acceso.tamanio : Acceso → ℤ
  | .read _ tamanio => tamanio
  | .write _ datos => aInt datos.length

variable (cpu : Cpu) (s : EstadoCpu cfg) (pid direccionLogica : ℤ)

/-- An entry changed through the pointer that the lookup returned. -/
def conEntrada (i : ℕ) (e : EntradaCache) : EstadoCpu cfg :=
  { s with cache := { s.cache with entradas := s.cache.entradas.set i e } }

/-- TLB, and Memoria on a miss. `alAcertar` is what the caller does to the entry that hit. -/
def obtenerMarco (alAcertar : Tlb → ℕ → Tlb) : Option (Option ℤ × EstadoCpu cfg) :=
  let pagina := obtenerPagina cfg direccionLogica
  match buscarEnTlb cpu s.tlb pid pagina with
  | (some i, tlb) => do
    let e ← tlb.entradas[i]?
    return (some e.marco, { s with tlb := alAcertar tlb i })
  | (none, tlb) => do
    let (marco, m) ← pedirTraduccionAMemoria cpu s.memoria pid direccionLogica
    if marco = -1 then return (none, { s with tlb := tlb, memoria := m })
    else return (some marco, { s with tlb := agregarATlb cpu tlb pid pagina marco, memoria := m })

def manejarInstruccionRead (tamanioALeer : ℤ) : Option (Resultado × EstadoCpu cfg) :=
  let pagina := obtenerPagina cfg direccionLogica
  let offset := obtenerOffset cfg direccionLogica
  if ExcedeLimite cfg direccionLogica tamanioALeer then some (.segmentationFault, s)
  else
    match obtenerEntradaCache s.cache pid pagina with
    | some i => do
      let e ← s.cache.entradas[i]?
      let datos ← copiarDePagina cfg e.contenido offset tamanioALeer
      return (.hecho datos, conEntrada s i { e with bitUso := true })
    | none => do
      let (marco, s₁) ← obtenerMarco cpu s pid direccionLogica fun tlb _ => tlb
      match marco with
      | none => return (.segmentationFault, s₁)
      | some marco => do
        let (leida, m) ← leerBytesDeMemoriaPrincipal cpu s₁.memoria marco 0 cfg.tamPagina pid
        match leida with
        | none => return (.segmentationFault, { s₁ with memoria := m })
        | some paginaCompleta => do
          let (cache, m') ← insertarEnCache cpu s₁.cache m pid pagina marco paginaCompleta false
          let datos ← copiarDePagina cfg paginaCompleta offset tamanioALeer
          return (.hecho datos, { s₁ with cache := cache, memoria := m' })

def manejarInstruccionWrite (datos : List Byte) : Option (Resultado × EstadoCpu cfg) :=
  let tamanioDatos := aInt datos.length
  let pagina := obtenerPagina cfg direccionLogica
  let offset := obtenerOffset cfg direccionLogica
  if ExcedeLimite cfg direccionLogica tamanioDatos then some (.segmentationFault, s)
  else if s.cache.entradas ≠ [] then
    match obtenerEntradaCache s.cache pid pagina with
    | some i => do
      let e ← s.cache.entradas[i]?
      let contenido ← copiarAPagina cfg e.contenido offset tamanioDatos datos
      return (.hecho [],
        conEntrada s i { e with contenido := contenido, bitModificado := true, bitUso := true })
    | none => do
      let (marco, m) ← pedirTraduccionAMemoria cpu s.memoria pid direccionLogica
      if marco = -1 then return (.segmentationFault, { s with memoria := m })
      else do
        let (leida, m) ← leerBytesDeMemoriaPrincipal cpu m marco 0 cfg.tamPagina pid
        match leida with
        | none => return (.segmentationFault, { s with memoria := m })
        | some paginaCompleta => do
          let contenido ← copiarAPagina cfg paginaCompleta offset tamanioDatos datos
          let (cache, m') ← insertarEnCache cpu s.cache m pid pagina marco contenido true
          return (.hecho [], { s with cache := cache, memoria := m' })
  else do
    let (marco, s₁) ← obtenerMarco cpu s pid direccionLogica (marcarTimestamp cpu)
    match marco with
    | none => return (.segmentationFault, s₁)
    | some marco => do
      let m ← escribirBytesEnMemoriaPrincipal cpu s₁.memoria marco offset tamanioDatos datos pid
      return (.hecho [], { s₁ with memoria := m })

def ejecutarAcceso : Acceso → Option (Resultado × EstadoCpu cfg)
  | .read dl tamanio => manejarInstruccionRead cpu s pid dl tamanio
  | .write dl datos => manejarInstruccionWrite cpu s pid dl datos

section Rafagas

/-- The accesses of a burst, in order. -/
def ejecutarAccesos : EstadoCpu cfg → List Acceso → Option (List Resultado × EstadoCpu cfg)
  | s, [] => some ([], s)
  | s, acc :: accs => do
    let (r, s₁) ← ejecutarAcceso cpu s pid acc
    let (rs, s₂) ← ejecutarAccesos s₁ accs
    return (r :: rs, s₂)

/-- The verdicts of a burst, and user memory after the cleaning that ends it. -/
def rafaga (accs : List Acceso) : Option (List Resultado × List Byte) := do
  let (rs, s₁) ← ejecutarAccesos cpu pid s accs
  let (_, m) ← limpiarCacheDeProceso cpu s₁.cache s₁.memoria pid
  return (rs, m.almacen.memoriaUsuario)

/-- The tables as `limpiar_tlb` and `limpiar_cache_de_proceso` leave them. -/
structure MmuLimpia (s : EstadoCpu cfg) : Prop where
  tlb : ∀ (i : ℕ) (p pagina marco : ℤ), ¬ Mapea s.tlb i p pagina marco
  cache : ∀ e ∈ s.cache.entradas, e.ocupado = false
  puntero : s.cache.entradas ≠ [] → s.cache.puntero < s.cache.entradas.length

/-- The tables at the start. The page size is still zero then, so a page buffer is empty. -/
def iniciarMmu (totalEntradasTlb entradasCache : ℤ) (m : Memoria cfg) : EstadoCpu cfg where
  tlb := ⟨List.replicate totalEntradasTlb.toNat ⟨false, -1, -1, -1, 0⟩, 0, 0⟩
  cache := ⟨List.replicate entradasCache.toNat entradaLimpia, 0⟩
  memoria := m

theorem mmuLimpia_iniciar (totalEntradasTlb entradasCache : ℤ) (m : Memoria cfg) :
    MmuLimpia (iniciarMmu totalEntradasTlb entradasCache m) where
  tlb := by
    rintro i p pagina marco ⟨ts, h⟩
    have hmem := List.eq_of_mem_replicate (List.mem_of_getElem? h)
    cases hmem
  cache := by
    intro e he
    rw [List.eq_of_mem_replicate he]
    rfl
  puntero := List.length_pos_of_ne_nil

/-- The same CPU with `ENTRADAS_TLB` and `ENTRADAS_CACHE` zero. -/
def sinTablas : EstadoCpu cfg where
  tlb := { s.tlb with entradas := [] }
  cache := { s.cache with entradas := [] }
  memoria := s.memoria

theorem mmuLimpia_sinTablas : MmuLimpia (sinTablas s) where
  tlb := by
    rintro i p pagina marco ⟨ts, h⟩
    cases h
  cache := by
    intro e he
    cases he
  puntero := by
    intro h
    exact absurd rfl h

end Rafagas

section Caminos

variable {cpu s pid} {s₁ : EstadoCpu cfg} {dl tamanio marco : ℤ}
  {pagina contenido datos : List Byte}
  {m m' : Memoria cfg} {cache : Cache} {i : ℕ} {e : EntradaCache}

/-- READ on a page that is in the cache. -/
theorem read_acierto (hexc : ¬ ExcedeLimite cfg dl tamanio)
    (hbusca : obtenerEntradaCache s.cache pid (obtenerPagina cfg dl) = some i)
    (he : s.cache.entradas[i]? = some e) :
    manejarInstruccionRead cpu s pid dl tamanio =
      (copiarDePagina cfg e.contenido (obtenerOffset cfg dl) tamanio).map fun datos =>
        (.hecho datos, conEntrada s i { e with bitUso := true }) := by
  rw [manejarInstruccionRead, if_neg hexc, hbusca]
  simp only [he, Option.bind_eq_bind, Option.bind_some, Option.pure_def]
  cases copiarDePagina cfg e.contenido (obtenerOffset cfg dl) tamanio with
  | none => rfl
  | some datos => rfl

/-- READ on a page that is brought from Memoria. -/
theorem read_falla (hexc : ¬ ExcedeLimite cfg dl tamanio)
    (hbusca : obtenerEntradaCache s.cache pid (obtenerPagina cfg dl) = none)
    (hobt : obtenerMarco cpu s pid dl (fun t _ => t) = some (some marco, s₁))
    (hlee : leerBytesDeMemoriaPrincipal cpu s₁.memoria marco 0 cfg.tamPagina pid =
      some (some pagina, m))
    (hins : insertarEnCache cpu s₁.cache m pid (obtenerPagina cfg dl) marco pagina false =
      some (cache, m')) :
    manejarInstruccionRead cpu s pid dl tamanio =
      (copiarDePagina cfg pagina (obtenerOffset cfg dl) tamanio).map fun datos =>
        (.hecho datos, { s₁ with cache := cache, memoria := m' }) := by
  rw [manejarInstruccionRead, if_neg hexc, hbusca]
  simp only [hobt, hlee, hins, Option.bind_eq_bind, Option.bind_some, Option.pure_def]
  cases copiarDePagina cfg pagina (obtenerOffset cfg dl) tamanio with
  | none => rfl
  | some datos => rfl

section Escritura

variable (hexc : ¬ ExcedeLimite cfg dl (aInt datos.length))
include hexc

theorem write_acierto (hne : s.cache.entradas ≠ [])
    (hbusca : obtenerEntradaCache s.cache pid (obtenerPagina cfg dl) = some i)
    (he : s.cache.entradas[i]? = some e) :
    manejarInstruccionWrite cpu s pid dl datos =
      (copiarAPagina cfg e.contenido (obtenerOffset cfg dl) (aInt datos.length) datos).map
        fun contenido =>
        (.hecho [],
          conEntrada s i
            { e with contenido := contenido, bitModificado := true, bitUso := true }) := by
  rw [manejarInstruccionWrite, if_neg hexc, if_pos hne, hbusca]
  simp only [he, Option.bind_eq_bind, Option.bind_some, Option.pure_def]
  cases copiarAPagina cfg e.contenido (obtenerOffset cfg dl) (aInt datos.length) datos with
  | none => rfl
  | some contenido => rfl

/-- WRITE on a page that is brought from Memoria: it never asks the TLB. -/
theorem write_falla {m₁ : Memoria cfg} (hne : s.cache.entradas ≠ [])
    (hbusca : obtenerEntradaCache s.cache pid (obtenerPagina cfg dl) = none)
    (hped : pedirTraduccionAMemoria cpu s.memoria pid dl = some (marco, m₁)) (hmarco : marco ≠ -1)
    (hlee : leerBytesDeMemoriaPrincipal cpu m₁ marco 0 cfg.tamPagina pid = some (some pagina, m)) :
    manejarInstruccionWrite cpu s pid dl datos =
      (copiarAPagina cfg pagina (obtenerOffset cfg dl) (aInt datos.length) datos).bind
        fun contenido =>
        (insertarEnCache cpu s.cache m pid (obtenerPagina cfg dl) marco contenido true).map fun r =>
          (.hecho [], { s with cache := r.1, memoria := r.2 }) := by
  rw [manejarInstruccionWrite, if_neg hexc, if_pos hne, hbusca]
  simp only [hped, if_neg hmarco, hlee, Option.bind_eq_bind, Option.bind_some, Option.pure_def]
  cases copiarAPagina cfg pagina (obtenerOffset cfg dl) (aInt datos.length) datos with
  | none => rfl
  | some contenido =>
    rw [Option.bind_some, Option.bind_some]
    cases insertarEnCache cpu s.cache m pid (obtenerPagina cfg dl) marco contenido true with
    | none => rfl
    | some r => rfl

/-- WRITE without a cache. -/
theorem write_directa (hvacia : s.cache.entradas = [])
    (hobt : obtenerMarco cpu s pid dl (marcarTimestamp cpu) = some (some marco, s₁)) :
    manejarInstruccionWrite cpu s pid dl datos =
      (escribirBytesEnMemoriaPrincipal cpu s₁.memoria marco (obtenerOffset cfg dl)
        (aInt datos.length)
        datos pid).map fun m => (.hecho [], { s₁ with memoria := m }) := by
  rw [manejarInstruccionWrite, if_neg hexc, if_neg (not_not.mpr hvacia), hobt, Option.bind_eq_bind,
    Option.bind_some]
  dsimp only
  cases escribirBytesEnMemoriaPrincipal cpu s₁.memoria marco (obtenerOffset cfg dl)
    (aInt datos.length)
    datos pid with
  | none => rfl
  | some m => rfl

end Escritura

end Caminos

end CpuAccesos
