import Tpssoo.MemoriaRespuestas

/-!
# Bounds of physical accesses

The exact range of an access against the test of `leer_memoria_fisica` and
`escribir_memoria_fisica`, whose product and sums wrap at 32 bits.
-/
namespace MemoriaLimites

open EnterosC Protocolo RangosBytes MemoriaEstado MemoriaTraduccion MemoriaPeticiones
  MemoriaRespuestas

variable {cfg : Config} {env : Entorno} {m : Memoria cfg} {pid marco offset tamanio : ℤ}

/-- The address of an access, without wrapping. -/
def direccionExacta (cfg : Config) (marco offset : ℤ) : ℤ := marco * cfg.tamPagina + offset

/-- The exact range of an access lies in user memory. -/
def EnRango (cfg : Config) (marco offset tamanio : ℤ) : Prop :=
  0 ≤ tamanio ∧ 0 ≤ direccionExacta cfg marco offset ∧
    direccionExacta cfg marco offset + tamanio ≤ cfg.tamMemoria

/-- One packet answers the access: the one of success exactly when the range is in bounds, and
otherwise the one of the error, with user memory as it was. -/
def AccesoControlado (m : Memoria cfg) (ok error : ℕ) (enRango : Prop) (r : Atencion cfg) : Prop :=
  ∃ paquete m', r = some ([.paquete paquete], m') ∧ (paquete.codigoOperacion = ok ↔ enRango) ∧
    (paquete.codigoOperacion ≠ ok →
      paquete = crearPaquete error ∧ m'.almacen.memoriaUsuario = m.almacen.memoriaUsuario)

/-- The wrapped address of a range that the test is sure to place: it is negative, or the sum does
not overflow and either the range ends past user memory or nothing was wrapped. -/
def BienUbicado (cfg : Config) (marco offset tamanio : ℤ) : Prop :=
  2 ^ 31 ≤ direccionExacta cfg marco offset % 2 ^ 32 ∨
    direccionExacta cfg marco offset % 2 ^ 32 + tamanio < 2 ^ 31 ∧
      (cfg.tamMemoria < direccionExacta cfg marco offset % 2 ^ 32 + tamanio ∨
        direccionExacta cfg marco offset % 2 ^ 32 = direccionExacta cfg marco offset)

/-- Below -1 `malloc` refuses the size; at -1 it does not, and at the greatest `int` it does. -/
def LecturaUbicada (cfg : Config) (marco offset tamanio : ℤ) : Prop :=
  (tamanio = -1 → 2 ^ 31 ≤ direccionExacta cfg marco offset % 2 ^ 32 ∨
    cfg.tamMemoria + 1 < direccionExacta cfg marco offset % 2 ^ 32) ∧
  (0 ≤ tamanio → tamanio < 2 ^ 31 - 1 → BienUbicado cfg marco offset tamanio) ∧
  (tamanio = 2 ^ 31 - 1 →
    ¬ (direccionExacta cfg marco offset = 0 ∧ cfg.tamMemoria = 2 ^ 31 - 1))

/-- A size is read as it is announced when it is not negative and the content is all there. -/
def EscrituraUbicada (cfg : Config) (marco offset tamanio : ℤ) (contenido : List Byte) : Prop :=
  0 ≤ tamanio ∧ tamanio ≤ contenido.length ∧ BienUbicado cfg marco offset tamanio

instance (cfg : Config) (marco offset tamanio : ℤ) :
    Decidable (BienUbicado cfg marco offset tamanio) := inferInstanceAs (Decidable (_ ∨ _))

instance (cfg : Config) (marco offset tamanio : ℤ) :
    Decidable (LecturaUbicada cfg marco offset tamanio) := inferInstanceAs (Decidable (_ ∧ _))

instance (cfg : Config) (marco offset tamanio : ℤ) (contenido : List Byte) :
    Decidable (EscrituraUbicada cfg marco offset tamanio contenido) :=
  inferInstanceAs (Decidable (_ ∧ _))

section Reglas

theorem direccionFisica_eq (cfg : Config) (marco offset : ℤ) :
    direccionFisica cfg marco offset =
      if direccionExacta cfg marco offset % 2 ^ 32 < 2 ^ 31 then
        direccionExacta cfg marco offset % 2 ^ 32
      else direccionExacta cfg marco offset % 2 ^ 32 - 2 ^ 32 := by
  rw [direccionFisica, aInt, aInt, Int.bmod_add_bmod, ← direccionExacta, Int.bmod_def]
  norm_num

theorem memoria_contarAcceso (f : Metricas → Metricas) :
    (contarAcceso m pid f).almacen = m.almacen := by
  rw [contarAcceso]
  split <;> rfl

theorem controlado_none {ok error : ℕ} {enRango : Prop} :
    ¬ AccesoControlado m ok error enRango none := by
  rintro ⟨paquete, m', h, -⟩
  cases h

theorem controlado_ok {ok error : ℕ} {enRango : Prop} {paquete : Paquete} {m' : Memoria cfg}
    (hok : paquete.codigoOperacion = ok) :
    AccesoControlado m ok error enRango (some ([.paquete paquete], m')) ↔ enRango := by
  constructor
  · rintro ⟨paquete', m'', h, hrango, -⟩
    cases h
    exact hrango.mp hok
  · intro h
    exact ⟨paquete, m', rfl, iff_of_true hok h, fun hno => absurd hok hno⟩

theorem controlado_error {ok error : ℕ} {enRango : Prop} {m' : Memoria cfg} (hno : error ≠ ok)
    (hm : m'.almacen.memoriaUsuario = m.almacen.memoriaUsuario) :
    AccesoControlado m ok error enRango (some (responder error, m')) ↔ ¬ enRango := by
  constructor
  · rintro ⟨paquete', m'', h, hrango, -⟩ hsi
    cases h
    exact hno (hrango.mpr hsi)
  · intro h
    exact ⟨crearPaquete error, m', rfl, iff_of_false hno h, fun _ => ⟨rfl, hm⟩⟩

end Reglas

section Lectura

/-- The three outcomes of `leer_memoria_fisica`. -/
theorem lectura_casos (cfg : Config) (memoria : List Byte) {d t : ℤ} (hd : EsInt d)
    (ht : EsInt t) :
    leerMemoriaFisica cfg memoria d t =
      if d < 0 ∨ (cfg.tamMemoria < d + t ∧ d + t < 2 ^ 31) ∨ t < -1 ∨ t = 2 ^ 31 - 1 then some none
      else if 0 ≤ t ∧ d + t ≤ cfg.tamMemoria then
        some (some (leerRango memoria d.toNat t.toNat))
      else none := by
  have hmalloc : aInt (t + 1) < 0 ↔ t < -1 ∨ t = 2 ^ 31 - 1 := by
    obtain ⟨ht₁, ht₂⟩ := ht
    by_cases hmax : t = 2 ^ 31 - 1
    · subst hmax
      decide
    · rw [aInt_eq ⟨by omega, by omega⟩]
      omega
  have hlimites : FueraDeLimites cfg d t ↔
      d < 0 ∨ ((cfg.tamMemoria : ℤ) < d + t ∧ d + t < 2 ^ 31) := fueraDeLimites_iff hd ht
  rw [leerMemoriaFisica]
  by_cases hfuera : FueraDeLimites cfg d t
  · have hcaso := hlimites.mp hfuera
    rw [if_pos hfuera, if_pos (by omega)]
  · have hcaso := mt hlimites.mpr hfuera
    rw [if_neg hfuera]
    by_cases hneg : aInt (t + 1) < 0
    · have hneg' := hmalloc.mp hneg
      rw [if_pos hneg, if_pos (by omega)]
    · have hneg' := mt hmalloc.mpr hneg
      have hacepta : ¬ (d < 0 ∨ (cfg.tamMemoria < d + t ∧ d + t < 2 ^ 31) ∨ t < -1 ∨
          t = 2 ^ 31 - 1) := by omega
      rw [if_neg hneg, if_neg hacepta]
      have hcopia : CopiaValida cfg d t ↔ 0 ≤ t ∧ d + t ≤ cfg.tamMemoria := by
        unfold CopiaValida
        omega
      simp only [hcopia]

theorem lectura_controlada (ht : EsInt tamanio) :
    AccesoControlado m OpCode.operacionLecturaOk.codigo
        ResultadoEjecucion.errorLecturaMemoria.codigo (EnRango cfg marco offset tamanio)
        (atenderPostHandshake env m (.leerMemoria pid marco offset tamanio)) ↔
      LecturaUbicada cfg marco offset tamanio := by
  have hd := esInt_direccion cfg marco offset
  have hdir := direccionFisica_eq cfg marco offset
  have htam := cfg.tamMemoria_int
  have hleer := lectura_casos cfg (contarAcceso m pid fun x =>
    { x with lecturasMemoria := x.lecturasMemoria + 1 }).almacen.memoriaUsuario hd ht
  obtain ⟨ht₁, ht₂⟩ := ht
  simp only [atenderPostHandshake, manejarLecturaDireccionFisica, LecturaUbicada, BienUbicado,
    EnRango]
  generalize direccionFisica cfg marco offset = d at hleer hdir ⊢
  generalize direccionExacta cfg marco offset = e at hdir ⊢
  rw [hleer]
  by_cases hrechaza : d < 0 ∨ (cfg.tamMemoria < d + tamanio ∧ d + tamanio < 2 ^ 31) ∨
      tamanio < -1 ∨ tamanio = 2 ^ 31 - 1
  · rw [if_pos hrechaza]
    refine (controlado_error (by decide) ?_).trans ?_
    · rw [memoria_contarAcceso]
    · omega
  · rw [if_neg hrechaza]
    by_cases hcopia : 0 ≤ tamanio ∧ d + tamanio ≤ cfg.tamMemoria
    · rw [if_pos hcopia]
      refine (controlado_ok rfl).trans ?_
      omega
    · rw [if_neg hcopia]
      refine iff_of_false controlado_none ?_
      omega

end Lectura

section Escritura

theorem escritura_casos (cfg : Config) (memoria valor : List Byte) {d t : ℤ} (hd : EsInt d)
    (ht : EsInt t) (hpos : 0 ≤ t) :
    escribirMemoriaFisica cfg memoria d valor t =
      if d < 0 ∨ (cfg.tamMemoria < d + t ∧ d + t < 2 ^ 31) then some none
      else if d + t ≤ cfg.tamMemoria then some (some (escribirRango memoria d.toNat valor))
      else none := by
  have hlimites : FueraDeLimites cfg d t ↔
      d < 0 ∨ ((cfg.tamMemoria : ℤ) < d + t ∧ d + t < 2 ^ 31) := fueraDeLimites_iff hd ht
  rw [escribirMemoriaFisica]
  by_cases hfuera : FueraDeLimites cfg d t
  · rw [if_pos hfuera, if_pos (hlimites.mp hfuera)]
  · have hcaso := mt hlimites.mpr hfuera
    have hcopia : CopiaValida cfg d t ↔ d + t ≤ cfg.tamMemoria := by
      unfold CopiaValida
      omega
    rw [if_neg hfuera, if_neg hcaso]
    simp only [hcopia]

theorem escritura_controlada (ht : EsInt tamanio) {contenido : List Byte} :
    AccesoControlado m OpCode.operacionEscrituraOk.codigo
        ResultadoEjecucion.errorEscrituraMemoria.codigo (EnRango cfg marco offset tamanio)
        (atenderPostHandshake env m (.escribirMemoria pid marco offset tamanio contenido)) ↔
      EscrituraUbicada cfg marco offset tamanio contenido := by
  rw [EscrituraUbicada]
  by_cases hcorto : tamanio < 0 ∨ (contenido.length : ℤ) < tamanio
  · rw [atenderPostHandshake, if_pos hcorto]
    refine iff_of_false controlado_none ?_
    rintro ⟨hpos, hlargo, -⟩
    omega
  · rw [atenderPostHandshake, if_neg hcorto]
    have hpos : 0 ≤ tamanio := by omega
    have hlargo : tamanio ≤ contenido.length := by omega
    have hd := esInt_direccion cfg marco offset
    have hdir := direccionFisica_eq cfg marco offset
    have htam := cfg.tamMemoria_int
    have hescribir := escritura_casos cfg (contarAcceso m pid fun x =>
      { x with escriturasMemoria := x.escriturasMemoria + 1 }).almacen.memoriaUsuario
      (contenido.take tamanio.toNat) hd ht hpos
    obtain ⟨ht₁, ht₂⟩ := ht
    simp only [manejarEscrituraDireccionFisica, BienUbicado, EnRango, hpos, hlargo, true_and]
    generalize direccionFisica cfg marco offset = d at hescribir hdir ⊢
    generalize direccionExacta cfg marco offset = e at hdir ⊢
    rw [hescribir]
    by_cases hrechaza : d < 0 ∨ (cfg.tamMemoria < d + tamanio ∧ d + tamanio < 2 ^ 31)
    · rw [if_pos hrechaza]
      refine (controlado_error (by decide) ?_).trans ?_
      · rw [memoria_contarAcceso]
      · omega
    · rw [if_neg hrechaza]
      by_cases hcopia : d + tamanio ≤ cfg.tamMemoria
      · rw [if_pos hcopia]
        refine (controlado_ok rfl).trans ?_
        omega
      · rw [if_neg hcopia]
        refine iff_of_false controlado_none ?_
        omega

end Escritura

/-- For any fields of 32 bits, the accesses are checked exactly when the wrapped range is placed
as the exact one. -/
theorem accesos_controlados_iff (env : Entorno) (m : Memoria cfg)
    (pid marco offset tamanio : ℤ) (ht : EsInt tamanio) (contenido : List Byte) :
    (AccesoControlado m OpCode.operacionLecturaOk.codigo
        ResultadoEjecucion.errorLecturaMemoria.codigo (EnRango cfg marco offset tamanio)
        (atenderPostHandshake env m (.leerMemoria pid marco offset tamanio)) ↔
      LecturaUbicada cfg marco offset tamanio) ∧
    (AccesoControlado m OpCode.operacionEscrituraOk.codigo
        ResultadoEjecucion.errorEscrituraMemoria.codigo (EnRango cfg marco offset tamanio)
        (atenderPostHandshake env m (.escribirMemoria pid marco offset tamanio contenido)) ↔
      EscrituraUbicada cfg marco offset tamanio contenido) :=
  ⟨lectura_controlada ht, escritura_controlada ht⟩

/-- The last page of the example is read and written. -/
theorem accesos_controlados_ejemplo :
    AccesoControlado (inicial configEjemplo) OpCode.operacionLecturaOk.codigo
        ResultadoEjecucion.errorLecturaMemoria.codigo (EnRango configEjemplo 3 0 4)
        (atenderPostHandshake entornoEjemplo (inicial configEjemplo) (.leerMemoria 0 3 0 4)) ∧
    AccesoControlado (inicial configEjemplo) OpCode.operacionEscrituraOk.codigo
        ResultadoEjecucion.errorEscrituraMemoria.codigo (EnRango configEjemplo 3 0 4)
        (atenderPostHandshake entornoEjemplo (inicial configEjemplo)
          (.escribirMemoria 0 3 0 4 [1, 2, 3, 4])) := by
  obtain ⟨hlee, hescribe⟩ := accesos_controlados_iff entornoEjemplo (inicial configEjemplo) 0 3 0 4
    (by decide) [1, 2, 3, 4]
  exact ⟨hlee.mpr (by decide), hescribe.mpr (by decide)⟩

/-- Frame 2 ^ 30 with pages of four bytes: the product wraps to 0 and the first four bytes are
read. Size -1 at address 0: the copy of -1 bytes is never answered. -/
theorem accesos_no_controlados :
    (atenderPostHandshake entornoEjemplo (inicial configEjemplo) (.leerMemoria 0 (2 ^ 30) 0 4)).map
        Prod.fst = some [.paquete
          (agregarAPaquete (crearPaquete OpCode.operacionLecturaOk.codigo) [0, 0, 0, 0])] ∧
    ¬ AccesoControlado (inicial configEjemplo) OpCode.operacionLecturaOk.codigo
        ResultadoEjecucion.errorLecturaMemoria.codigo (EnRango configEjemplo (2 ^ 30) 0 4)
        (atenderPostHandshake entornoEjemplo (inicial configEjemplo)
          (.leerMemoria 0 (2 ^ 30) 0 4)) ∧
    atenderPostHandshake entornoEjemplo (inicial configEjemplo) (.leerMemoria 0 0 0 (-1)) =
      none := by
  refine ⟨by decide +kernel, ?_, Option.isNone_iff_eq_none.mp (by decide +kernel)⟩
  rw [lectura_controlada (by decide)]
  decide

end MemoriaLimites
