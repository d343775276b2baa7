import Tpssoo.MemoriaAdmision

/-!
# One reply for each request

Which requests get exactly one packet, and that an error packet leaves everything but the
metrics as it was.
-/
namespace MemoriaRespuestas

open EnterosC Protocolo MemoriaEstado MemoriaSwap MemoriaPaginacion MemoriaInstrucciones
  MemoriaTraduccion MemoriaPeticiones MemoriaFilas MemoriaEfectos MemoriaInvariante

variable {cfg : Config} {env : Entorno} {m m' : Memoria cfg}

/-- Fields are `int`s and the announced lengths are those of the data sent. -/
def BienFormada : Peticion → Prop
  | .pedirInstrucciones pid pc => EsInt pid ∧ EsInt pc
  | .pedirEspacioLibre => True
  | .initProc pid tam largoPath path =>
    EsInt pid ∧ EsInt tam ∧ EsInt largoPath ∧ path.length = largoPath.toNat
  | .traducirTabla pid dl => EsInt pid ∧ EsInt dl
  | .finalizarProceso pid => EsInt pid
  | .leerMemoria pid marco offset tamanio => EsInt pid ∧ EsInt marco ∧ EsInt offset ∧ EsInt tamanio
  | .escribirMemoria pid marco offset tamanio contenido =>
    EsInt pid ∧ EsInt marco ∧ EsInt offset ∧ EsInt tamanio ∧ contenido.length = tamanio.toNat
  | .suspenderProceso pid => EsInt pid
  | .desuspenderProceso pid => EsInt pid
  | .dumpMemory pid => EsInt pid

def codigosError : List ℕ :=
  [OpCode.errorPidNoEncontrado.codigo, OpCode.errorPcFueraDeRango.codigo,
    OpCode.procesoNoAlmacenado.codigo, OpCode.errorTraduccion.codigo,
    OpCode.marcoNoPresente.codigo, OpCode.noHayMarcosLibres.codigo,
    OpCode.errorFueraDePagina.codigo, OpCode.paginaFueraDeRango.codigo,
    OpCode.errorSwapFull.codigo, OpCode.errorMemoriaInsuficiente.codigo, OpCode.errorDump.codigo,
    OpCode.errorSegFault.codigo, ResultadoEjecucion.errorLecturaMemoria.codigo,
    ResultadoEjecucion.errorEscrituraMemoria.codigo]

def Error (p : Paquete) : Prop := p.codigoOperacion ∈ codigosError

/-- The handler runs to completion, sends one packet, and an error changes metrics only. -/
def RespondeUna (env : Entorno) (m : Memoria cfg) (pet : Peticion) : Prop :=
  ∃ paquete m', atenderPostHandshake env m pet = some ([.paquete paquete], m') ∧
    (Error paquete → sinMetricas m' = sinMetricas m)

/-- A copy of `tamanio` bytes at `direccion` does not overflow an `int`, and a read does not
announce the size -1, which passes both tests. -/
def AccesoDefinido (cfg : Config) (direccion tamanio : ℤ) : Prop :=
  direccion < 0 ∨
    ¬ (tamanio = -1 ∧ direccion ≤ cfg.tamMemoria + 1) ∧
      ¬ (0 ≤ tamanio ∧ tamanio < 2 ^ 31 - 1 ∧ 2 ^ 31 ≤ direccion + tamanio)

/-- The requests the handlers answer with one packet. -/
def Atendible (env : Entorno) (m : Memoria cfg) : Peticion → Prop
  | .pedirInstrucciones pid _ => buscarProceso m.diccionarioProcesos pid ≠ none
  | .pedirEspacioLibre => False
  | .initProc _ tam largoPath path =>
    0 ≤ largoPath ∧
      (paginasRequeridas cfg tam ≤ contarMarcosLibres m.almacen.bitmapMarcos →
        ∀ archivo, env.archivos (cfg.pathInstrucciones ++ cadena path) = some archivo →
          ¬ ∃ l ∈ fgets [] archivo, LineaSoloBlancos l)
  | .traducirTabla pid dl =>
    ∀ p, buscarProceso m.diccionarioProcesos pid = some p → Acepta p dl →
      cfg.nivelesInferiores * cfg.bitsPorNivel < 32
  | .finalizarProceso _ => True
  | .leerMemoria _ marco offset tamanio =>
    AccesoDefinido cfg (direccionFisica cfg marco offset) tamanio
  | .escribirMemoria _ marco offset tamanio _ =>
    0 ≤ tamanio ∧
      ¬ (0 ≤ direccionFisica cfg marco offset ∧
        2 ^ 31 ≤ direccionFisica cfg marco offset + tamanio)
  | .suspenderProceso _ => True
  | .desuspenderProceso _ => True
  | .dumpMemory _ => True

section Reglas

theorem sinMetricas_eq (ha : m'.almacen = m.almacen) (hp : procesos m' = procesos m)
    (hv : m'.volcados = m.volcados) : sinMetricas m' = sinMetricas m := by
  have hborra : ∀ ps : List (Proceso cfg),
      ps.map sinMetricasProceso = (ps.map soloMetricasSwap).map sinMetricasProceso := by
    intro ps
    rw [List.map_map]
    rfl
  have hd : m'.diccionarioProcesos.map sinMetricasProceso =
      m.diccionarioProcesos.map sinMetricasProceso := by
    rw [hborra, hborra m.diccionarioProcesos]
    exact congrArg _ hp
  simp only [sinMetricas, ha, hd, hv]

theorem respondeUna_de {pet : Peticion} (codigo : ℕ) (m' : Memoria cfg)
    (h : atenderPostHandshake env m pet = some (responder codigo, m'))
    (hs : codigo ∈ codigosError → sinMetricas m' = sinMetricas m) : RespondeUna env m pet :=
  ⟨crearPaquete codigo, m', h, hs⟩

theorem not_respondeUna {pet : Peticion} (h : atenderPostHandshake env m pet = none) :
    ¬ RespondeUna env m pet := by
  rintro ⟨paquete, m', h', -⟩
  rw [h] at h'
  cases h'

/-- The sum of the bounds test wraps at most once. -/
theorem aInt_suma {d t : ℤ} (hd : EsInt d) (ht : EsInt t) (h₀ : 0 ≤ d) :
    aInt (d + t) = if d + t < 2 ^ 31 then d + t else d + t - 2 ^ 32 := by
  obtain ⟨hd₁, hd₂⟩ := hd
  obtain ⟨ht₁, ht₂⟩ := ht
  split
  · exact aInt_eq ⟨by omega, by omega⟩
  · have hw : aInt (d + t - 2 ^ 32) = aInt (d + t) := by
      rw [← aInt_emod, ← aInt_emod (d + t)]
      congr 1
      omega
    rw [← hw]
    exact aInt_eq ⟨by omega, by omega⟩

theorem esInt_direccion (cfg : Config) (marco offset : ℤ) :
    EsInt (direccionFisica cfg marco offset) :=
    esInt_aInt _

/-- The bounds test misses exactly the sums that overflow. -/
theorem fueraDeLimites_iff {d t : ℤ} (hd : EsInt d) (ht : EsInt t) :
    FueraDeLimites cfg d t ↔ d < 0 ∨ ((cfg.tamMemoria : ℤ) < d + t ∧ d + t < 2 ^ 31) := by
  have hmem := cfg.tamMemoria_int
  have hd₂ := hd.2
  have ht₂ := ht.2
  unfold FueraDeLimites
  by_cases h₀ : d < 0
  · simp [h₀]
  · rw [aInt_suma hd ht (by omega)]
    split <;> omega

theorem lectura_indefinida_iff (cfg : Config) (memoria : List Byte) {d t : ℤ} (hd : EsInt d)
    (ht : EsInt t) :
    leerMemoriaFisica cfg memoria d t = none ↔ ¬ AccesoDefinido cfg d t := by
  have hmem := cfg.tamMemoria_int
  have hd₂ := hd.2
  obtain ⟨ht₁, ht₂⟩ := ht
  have huno : aInt (t + 1) < 0 ↔ t < -1 ∨ t = 2 ^ 31 - 1 := by
    by_cases hmax : t = 2 ^ 31 - 1
    · subst hmax
      decide
    · rw [aInt_eq ⟨by omega, by omega⟩]
      omega
  have hcaso : leerMemoriaFisica cfg memoria d t = none ↔
      ¬ FueraDeLimites cfg d t ∧ ¬ aInt (t + 1) < 0 ∧ ¬ CopiaValida cfg d t := by
    unfold leerMemoriaFisica
    by_cases h₁ : FueraDeLimites cfg d t <;> by_cases h₂ : aInt (t + 1) < 0 <;>
      by_cases h₃ : CopiaValida cfg d t <;> simp [h₁, h₂, h₃]
  rw [hcaso, fueraDeLimites_iff hd ⟨ht₁, ht₂⟩, huno]
  unfold AccesoDefinido CopiaValida
  omega

theorem escritura_indefinida_iff (cfg : Config) (memoria valor : List Byte) {d t : ℤ} (hd : EsInt d)
    (ht : EsInt t)
    (hpos : 0 ≤ t) :
    escribirMemoriaFisica cfg memoria d valor t = none ↔ 0 ≤ d ∧ 2 ^ 31 ≤ d + t := by
  have hmem := cfg.tamMemoria_int
  have hcaso : escribirMemoriaFisica cfg memoria d valor t = none ↔
      ¬ FueraDeLimites cfg d t ∧ ¬ CopiaValida cfg d t := by
    unfold escribirMemoriaFisica
    by_cases h₁ : FueraDeLimites cfg d t <;> by_cases h₃ : CopiaValida cfg d t <;> simp [h₁, h₃]
  rw [hcaso, fueraDeLimites_iff hd ht]
  unfold CopiaValida
  omega

theorem traducir_indefinido_iff {p : Proceso cfg} {dl : ℤ} :
    traducir p dl = none ↔ Acepta p dl ∧ 32 ≤ cfg.nivelesInferiores * cfg.bitsPorNivel := by
  have hn : cfg.nivelesInferiores < cfg.cantidadNiveles := by
    have := cfg.niveles_eq
    omega
  by_cases ha : Acepta p dl
  · by_cases hbits : cfg.nivelesInferiores * cfg.bitsPorNivel < 32
    · have : traducir p dl ≠ none := by
        unfold traducir
        rw [if_pos ha, recorrerNiveles_eq hn hbits]
        simp
      simp only [this, ha, true_and, false_iff]
      omega
    · simp only [MemoriaAdmision.traducir_indefinido (by omega) ha, ha, true_and, true_iff]
      omega
  · unfold traducir
    rw [if_neg ha]
    simp [ha]

end Reglas

section Peticiones

variable (hn : (m.diccionarioProcesos.map Proceso.pid).Nodup)

include hn

theorem pedirInstrucciones_iff {pid pc : ℤ} :
    RespondeUna env m (.pedirInstrucciones pid pc) ↔
      Atendible env m (.pedirInstrucciones pid pc) := by
  simp only [Atendible]
  cases hp : buscarProceso m.diccionarioProcesos pid with
  | none =>
    have hnone : atenderPostHandshake env m (.pedirInstrucciones pid pc) = none := by
      simp [atenderPostHandshake, enviarInstruccionSegunPidYPc, hp]
    simp [not_respondeUna hnone]
  | some p =>
    have hat : ∃ paquete m', atenderPostHandshake env m (.pedirInstrucciones pid pc) =
        some ([.paquete paquete], m') := by
      simp [atenderPostHandshake, enviarInstruccionSegunPidYPc, hp]
    obtain ⟨paquete, m', hat⟩ := hat
    obtain ⟨ha, hpr, hv⟩ := instruccion_quieta hn hat
    simp only [ne_eq, reduceCtorEq, not_false_eq_true, iff_true]
    exact ⟨paquete, m', hat, fun _ => sinMetricas_eq ha hpr hv⟩

theorem traducirTabla_iff {pid dl : ℤ} :
    RespondeUna env m (.traducirTabla pid dl) ↔ Atendible env m (.traducirTabla pid dl) := by
  simp only [Atendible]
  cases hp : buscarProceso m.diccionarioProcesos pid with
  | none =>
    simp only [reduceCtorEq, false_implies, implies_true, iff_true]
    refine respondeUna_de OpCode.errorPidNoEncontrado.codigo m ?_ fun _ => rfl
    simp [atenderPostHandshake, manejarTraduccionTabla, hp]
  | some p =>
    have hman : atenderPostHandshake env m (.traducirTabla pid dl) =
        (traducir p dl).map (responderTraduccion m p pid dl) := by
      simp [atenderPostHandshake, manejarTraduccionTabla, hp]
    simp only [Option.some.injEq, forall_eq']
    cases hr : traducir p dl with
    | none =>
      obtain ⟨hacepta, hbits⟩ := traducir_indefinido_iff.mp hr
      rw [hr] at hman
      simp only [not_respondeUna hman, hacepta, false_iff, forall_const]
      omega
    | some r =>
      have hdef : Acepta p dl → cfg.nivelesInferiores * cfg.bitsPorNivel < 32 := by
        intro hacepta
        by_contra hc
        rw [traducir_indefinido_iff.mpr ⟨hacepta, by omega⟩] at hr
        cases hr
      have hat : ∃ paquete m', atenderPostHandshake env m (.traducirTabla pid dl) =
          some ([.paquete paquete], m') := by
        rw [hman, hr]
        cases r <;> exact ⟨_, _, rfl⟩
      obtain ⟨paquete, m', hat⟩ := hat
      obtain ⟨ha, hpr, hv⟩ := traduccion_quieta hn hat
      exact iff_of_true ⟨paquete, m', hat, fun _ => sinMetricas_eq ha hpr hv⟩ hdef

theorem leerMemoria_iff {pid marco offset tamanio : ℤ} (ht : EsInt tamanio) :
    RespondeUna env m (.leerMemoria pid marco offset tamanio) ↔
      Atendible env m (.leerMemoria pid marco offset tamanio) := by
  simp only [Atendible]
  have hiff := lectura_indefinida_iff cfg (contarAcceso m pid fun x =>
    { x with lecturasMemoria := x.lecturasMemoria + 1 }).almacen.memoriaUsuario
    (esInt_direccion cfg marco offset) ht
  cases hr : leerMemoriaFisica cfg (contarAcceso m pid fun x =>
      { x with lecturasMemoria := x.lecturasMemoria + 1 }).almacen.memoriaUsuario
      (direccionFisica cfg marco offset) tamanio with
  | none =>
    have hnone : atenderPostHandshake env m (.leerMemoria pid marco offset tamanio) = none := by
      simp [atenderPostHandshake, manejarLecturaDireccionFisica, hr]
    exact iff_of_false (not_respondeUna hnone) (hiff.mp hr)
  | some r =>
    have hdef : AccesoDefinido cfg (direccionFisica cfg marco offset) tamanio := by
      by_contra hc
      rw [hiff.mpr hc] at hr
      cases hr
    have hat : ∃ paquete m', atenderPostHandshake env m (.leerMemoria pid marco offset tamanio) =
        some ([.paquete paquete], m') := by
      cases r <;> exact ⟨_, _, by
        simp only [atenderPostHandshake, manejarLecturaDireccionFisica, hr]; rfl⟩
    obtain ⟨paquete, m', hat⟩ := hat
    obtain ⟨ha, hpr, hv⟩ := lectura_quieta hn hat
    exact iff_of_true ⟨paquete, m', hat, fun _ => sinMetricas_eq ha hpr hv⟩ hdef

theorem escribirMemoria_iff {pid marco offset tamanio : ℤ} {contenido : List Byte}
    (ht : EsInt tamanio) (hlargo : contenido.length = tamanio.toNat) :
    RespondeUna env m (.escribirMemoria pid marco offset tamanio contenido) ↔
      Atendible env m (.escribirMemoria pid marco offset tamanio contenido) := by
  simp only [Atendible]
  by_cases hneg : tamanio < 0
  · have hnone : atenderPostHandshake env m
        (.escribirMemoria pid marco offset tamanio contenido) = none := if_pos (Or.inl hneg)
    exact iff_of_false (not_respondeUna hnone) fun h => by omega
  · have hman : atenderPostHandshake env m (.escribirMemoria pid marco offset tamanio contenido) =
        manejarEscrituraDireccionFisica m pid marco offset tamanio
          (contenido.take tamanio.toNat) := if_neg (by omega)
    have hiff := escritura_indefinida_iff cfg (contarAcceso m pid fun x =>
        { x with escriturasMemoria := x.escriturasMemoria + 1 }).almacen.memoriaUsuario
      (contenido.take tamanio.toNat)
      (esInt_direccion cfg marco offset) ht (by omega)
    cases hr : manejarEscrituraDireccionFisica m pid marco offset tamanio
        (contenido.take tamanio.toNat) with
    | none =>
      refine iff_of_false (not_respondeUna (hman.trans hr)) fun h => h.2 (hiff.mp ?_)
      unfold manejarEscrituraDireccionFisica at hr
      simp only [Option.bind_eq_bind, Option.bind_eq_none_iff] at hr
      cases hw : escribirMemoriaFisica cfg (contarAcceso m pid fun x =>
          { x with escriturasMemoria := x.escriturasMemoria + 1 }).almacen.memoriaUsuario
          (direccionFisica cfg marco offset) (contenido.take tamanio.toNat) tamanio with
      | none => rfl
      | some r =>
        have := hr r hw
        cases r <;> cases this
    | some r =>
      obtain ⟨envios, m'⟩ := r
      have hdef : ¬ (0 ≤ direccionFisica cfg marco offset ∧
          2 ^ 31 ≤ direccionFisica cfg marco offset + tamanio) := by
        intro hc
        simp [manejarEscrituraDireccionFisica, hiff.mpr hc] at hr
      refine iff_of_true ?_ ⟨by omega, hdef⟩
      rcases escritura_cases hn hr with ⟨rfl, ha, hp, hv⟩ | ⟨rfl, -, -, -⟩
      · exact respondeUna_de _ _ (hman.trans hr) fun _ => sinMetricas_eq ha hp hv
      · exact respondeUna_de _ _ (hman.trans hr) fun h => absurd h (by decide)

omit hn

theorem initProc_iff {pid tam largo : ℤ} {path : List Byte} (hlargo : path.length = largo.toNat) :
    RespondeUna env m (.initProc pid tam largo path) ↔
      Atendible env m (.initProc pid tam largo path) := by
  simp only [Atendible]
  by_cases hneg : largo < 0
  · have hnone : atenderPostHandshake env m (.initProc pid tam largo path) = none :=
      if_pos (Or.inl hneg)
    exact iff_of_false (not_respondeUna hnone) fun h => by omega
  · have hman : atenderPostHandshake env m (.initProc pid tam largo path) =
        almacenarProcesoNuevo env m pid tam path := by
      have hpath : path.take largo.toNat = path := by rw [← hlargo, List.take_length]
      refine (if_neg (by omega)).trans ?_
      rw [hpath]
    have hpos : 0 ≤ largo := by omega
    simp only [hpos, true_and]
    by_cases hmarcos : 0 < paginasRequeridas cfg tam ∧
        (contarMarcosLibres m.almacen.bitmapMarcos : ℤ) < paginasRequeridas cfg tam
    · refine iff_of_true (respondeUna_de OpCode.noHayMarcosLibres.codigo m ?_
        fun _ => rfl) fun h => by omega
      rw [hman, almacenarProcesoNuevo, if_pos hmarcos]
    · have hcabe : paginasRequeridas cfg tam ≤ contarMarcosLibres m.almacen.bitmapMarcos := by
        omega
      simp only [hcabe, forall_const]
      cases harch : env.archivos (cfg.pathInstrucciones ++ cadena path) with
      | none =>
        refine iff_of_true (respondeUna_de OpCode.procesoNoAlmacenado.codigo m ?_ fun _ =>
          rfl) (by simp)
        rw [hman, almacenarProcesoNuevo, if_neg hmarcos, harch]
      | some archivo =>
        simp only [Option.some.injEq, forall_eq', ← cargarInstrucciones_eq_none_iff]
        cases hinst : cargarInstrucciones archivo with
        | none =>
          refine iff_of_false (not_respondeUna ?_) (by simp)
          rw [hman, almacenarProcesoNuevo, if_neg hmarcos, harch]
          simp [hinst]
        | some inst =>
          refine iff_of_true ?_ (by simp)
          have hat : ∃ m', atenderPostHandshake env m (.initProc pid tam largo path) =
              some (responder OpCode.initProcesoOk.codigo, m') := by
            rw [hman, almacenarProcesoNuevo, if_neg hmarcos, harch]
            simp [hinst]
          obtain ⟨m', hat⟩ := hat
          exact respondeUna_de _ _ hat fun h => absurd h (by decide)

theorem suspension_responde (pid : ℤ) : RespondeUna env m (.suspenderProceso pid) := by
  cases hp : buscarProceso m.diccionarioProcesos pid with
  | none =>
    refine respondeUna_de OpCode.errorPidNoEncontrado.codigo m ?_ fun _ => rfl
    simp [atenderPostHandshake, manejarSuspensionProceso, hp]
  | some p =>
    refine respondeUna_de OpCode.suspensionOk.codigo
      (conPaginas m (suspenderPaginas env m.almacen p)) ?_ fun h => absurd h (by decide)
    simp [atenderPostHandshake, manejarSuspensionProceso, hp]

theorem desuspension_responde (pid : ℤ) : RespondeUna env m (.desuspenderProceso pid) := by
  cases hp : buscarProceso m.diccionarioProcesos pid with
  | none =>
    refine respondeUna_de OpCode.errorPidNoEncontrado.codigo m ?_ fun _ => rfl
    simp [atenderPostHandshake, manejarDesuspensionProceso, hp]
  | some p =>
    by_cases hc : contarMarcosLibres m.almacen.bitmapMarcos < contarPaginasEnSwap p.tablaNivel1
    · refine respondeUna_de OpCode.errorMemoriaInsuficiente.codigo m ?_
        fun _ => rfl
      simp [atenderPostHandshake, manejarDesuspensionProceso, hp, hc]
    · refine respondeUna_de OpCode.desuspensionOk.codigo
        (conPaginas m (desuspenderPaginas env m.almacen p)) ?_ fun h => absurd h (by decide)
      simp [atenderPostHandshake, manejarDesuspensionProceso, hp, hc]

theorem dump_responde (pid : ℤ) : RespondeUna env m (.dumpMemory pid) := by
  obtain ⟨-, -, hfallo⟩ := dump_quieto env m pid
  cases hr : manejarSolicitudDump env m pid with
  | mk exito m' =>
    rw [hr] at hfallo
    have hat : atenderPostHandshake env m (.dumpMemory pid) = some ([.paquete (agregarAPaquete
        (crearPaquete (if exito then OpCode.dumpOk else OpCode.errorDump).codigo)
        (bytesInt pid))], m') := by
      simp only [atenderPostHandshake, hr]
    refine ⟨_, m', hat, fun h => ?_⟩
    cases exito with
    | false => exact congrArg sinMetricas (hfallo rfl)
    | true =>
      change OpCode.dumpOk.codigo ∈ codigosError at h
      exact absurd h (by decide)

end Peticiones

/-- A well-formed request is answered with exactly one packet, and an error with no change
but to the metrics, exactly when it is one that its handler can finish. -/
theorem respondeUna_iff (hm : Alcanzable m) {pet : Peticion} (hpet : BienFormada pet) :
    RespondeUna env m pet ↔ Atendible env m pet := by
  have hn := (invariante_de_alcanzable hm).pids
  cases pet with
  | pedirInstrucciones pid pc => exact pedirInstrucciones_iff hn
  | pedirEspacioLibre =>
    refine iff_of_false ?_ id
    rintro ⟨paquete, m', h, -⟩
    simp [atenderPostHandshake, enviarEspacioLibre] at h
  | initProc pid tam largo path => exact initProc_iff hpet.2.2.2
  | traducirTabla pid dl => exact traducirTabla_iff hn
  | finalizarProceso pid =>
    exact iff_of_true (respondeUna_de _ _ rfl fun h => absurd h (by decide)) trivial
  | leerMemoria pid marco offset tamanio => exact leerMemoria_iff hn hpet.2.2.2
  | escribirMemoria pid marco offset tamanio contenido =>
    exact escribirMemoria_iff hn hpet.2.2.2.1 hpet.2.2.2.2
  | suspenderProceso pid => exact iff_of_true (suspension_responde pid) trivial
  | desuspenderProceso pid => exact iff_of_true (desuspension_responde pid) trivial
  | dumpMemory pid => exact iff_of_true (dump_responde pid) trivial

theorem respondeUna_ejemplo :
    RespondeUna entornoEjemplo (inicial configEjemplo) (.leerMemoria 1 0 0 4) ↔
      Atendible entornoEjemplo (inicial configEjemplo) (.leerMemoria 1 0 0 4) :=
  respondeUna_iff .inicial ⟨by decide, by decide, by decide, by decide⟩

/-- Asking for an instruction of a PID that is not in memory. -/
theorem pedirInstrucciones_sin_respuesta :
    BienFormada (.pedirInstrucciones 7 0) ∧
      ¬ RespondeUna entornoEjemplo (inicial configEjemplo) (.pedirInstrucciones 7 0) :=
  ⟨⟨by decide, by decide⟩, not_respondeUna rfl⟩

end MemoriaRespuestas
