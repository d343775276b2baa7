import Tpssoo.KernelPcbs

/-!
# What a burst keeps

The estimate of a process and the start of its burst only change when the process is dispatched
and when the response to its burst is received.
-/
namespace KernelRafagas

open EnterosC Protocolo KernelEstado KernelFunciones KernelHilos KernelVistas KernelPcbs
open Entrelazado

structure MismaRafaga (p p' : Pcb) : Prop where
  estimacion : p'.estimacionRafaga = p.estimacionRafaga
  inicio : p'.tiempoInicioEjecucionCpu = p.tiempoInicioEjecucionCpu

/-- The block of a PID, unless it was freed, is in the same burst. -/
def Conserva (v v' : VistaPcbs) (pid : ℤ) : Prop :=
  ∀ p', v'.pcbs pid = some p' → ∃ p, v.pcbs pid = some p ∧ MismaRafaga p p'

section Escrituras

variable {v v' : VistaPcbs} {pid : ℤ}

theorem mismaRafaga_cambiarEstado (ahora : ℤ) (e : Estado) (p : Pcb) :
    MismaRafaga p (p.cambiarEstado ahora e) := by
  rw [Pcb.cambiarEstado]
  split <;> exact ⟨rfl, rfl⟩

theorem Conserva.igual (h : v'.pcbs pid = v.pcbs pid) : Conserva v v' pid := fun p' hp' =>
  ⟨p', h.symm.trans hp', rfl, rfl⟩

theorem Conserva.mismo (h : v' = v) : Conserva v v' pid := .igual (h ▸ rfl)

theorem conserva_update {q : ℤ} {f : Pcb → Pcb} (hf : ∀ x, MismaRafaga x (f x)) :
    Conserva v ⟨v.ultimoPid, Function.update v.pcbs q ((v.pcbs q).map f)⟩ pid := by
  by_cases h : pid = q
  · subst h
    intro p' hp'
    have hp' := (Function.update_self _ _ _).symm.trans hp'
    obtain ⟨p, hp, rfl⟩ := Option.map_eq_some_iff.mp hp'
    exact ⟨p, hp, hf p⟩
  · exact .igual (Function.update_of_ne h _ _)

theorem conserva_otro {n q : ℤ} {x : Option Pcb} (h : pid ≠ q) :
    Conserva v ⟨n, Function.update v.pcbs q x⟩ pid := .igual (Function.update_of_ne h _ _)

end Escrituras

section Funciones

variable (c : ConfigKernel) (k : Kernel) {pid : ℤ}

theorem conserva_cambiarEstado (q : ℤ) (e : Estado) :
    Conserva (vistaPcbs k) (vistaPcbs (k.cambiarEstado q e)) pid :=
  conserva_update (mismaRafaga_cambiarEstado k.reloj e)

theorem conserva_admitir (q : ℤ) (susp : Bool) :
    Conserva (vistaPcbs k) (vistaPcbs (admitir c k q susp)) pid := by
  rw [admitir, vistaPcbs_desalojar]
  exact conserva_update (mismaRafaga_cambiarEstado k.reloj .ready)

theorem conserva_bloquearPorIo (q t : ℤ) :
    Conserva (vistaPcbs k) (vistaPcbs (bloquearPorIo k q t)) pid := by
  have hvista : vistaPcbs (bloquearPorIo k q t) =
      ⟨k.ultimoPid, Function.update k.pcbs q ((k.pcbs q).map fun p =>
        Pcb.cambiarEstado k.reloj .blocked { p with tiempoBloqueoIo := t })⟩ := by
    simp [bloquearPorIo, vistaPcbs, Kernel.cambiarEstado, Kernel.conPcb, Kernel.agregar,
      Kernel.quitar, Function.comp_def]
  rw [hvista]
  refine conserva_update (v := vistaPcbs k) fun p => ?_
  obtain ⟨hest, hini⟩ :=
    mismaRafaga_cambiarEstado k.reloj .blocked { p with tiempoBloqueoIo := t }
  exact ⟨hest, hini⟩

theorem conserva_terminarDump (q : ℤ) :
    Conserva (vistaPcbs k) (vistaPcbs (terminarDump k q)) pid := by
  rw [terminarDump]
  split
  · exact .mismo rfl
  · exact .mismo rfl
  split
  · exact conserva_cambiarEstado k _ .ready
  split
  · exact conserva_cambiarEstado k _ .suspendedReady
  · exact .mismo rfl

theorem conserva_resolverDump (q : ℤ) (ok : Bool) :
    Conserva (vistaPcbs k) (vistaPcbs (resolverDump k q ok)) pid := by
  rw [resolverDump]
  split
  · exact .mismo rfl
  split
  · exact conserva_terminarDump k _
  split
  · exact .mismo rfl
  · exact .mismo rfl
  · next hallado _ =>
      obtain ⟨colas, h⟩ := quitarBloqueado_eq k hallado
      rw [h]
      exact conserva_cambiarEstado k hallado .exit

theorem conserva_despertarDeIo (q : ℤ) :
    Conserva (vistaPcbs k) (vistaPcbs (despertarDeIo c k q)) pid := by
  rw [despertarDeIo]
  split
  · exact .mismo rfl
  · exact .mismo rfl
  split
  · rw [vistaPcbs_desalojar]
    exact conserva_cambiarEstado k _ .ready
  split
  · exact conserva_cambiarEstado k _ .suspendedReady
  · exact .mismo rfl

theorem conserva_crearPcb (path : List Byte) (tamanio : ℤ) (absoluto : Option (List Byte))
    (h : pid ≠ k.ultimoPid) :
    Conserva (vistaPcbs k) (vistaPcbs (crearPcb c k path tamanio absoluto)) pid := by
  rw [crearPcb]
  split <;> exact conserva_otro h

theorem conserva_recibirRespuesta (cpu fd : ℕ) (q pc : ℤ) (motivo : Motivo)
    (h : (k.cpus cpu).pcbEnEjecucion ≠ some pid) :
    Conserva (vistaPcbs k) (vistaPcbs (recibirRespuesta k c cpu fd q pc motivo)) pid := by
  rw [recibirRespuesta]
  split
  · exact .mismo rfl
  next pcb hpcb =>
  split
  · exact .mismo rfl
  split
  · exact .mismo rfl
  · refine conserva_otro ?_
    rintro rfl
    exact h hpcb

theorem conserva_gestorLibera (q : ℤ) (ok : Bool) : Conserva (vistaPcbs k)
    (vistaPcbs ((programa c).efecto k (.gestorLibera q ok))) pid := by
  dsimp only [programa, transicion]
  split
  · exact .mismo rfl
  · by_cases h : pid = q
    · subst h
      intro p' hp'
      cases (Function.update_self _ _ _).symm.trans hp'
    · refine .igual ((Function.update_of_ne h _ _).trans ?_)
      split <;> rfl

/-- A new process apart, only its dispatch and its response change the burst of a process. -/
theorem conserva_efecto {a : Accion} (hcorto : a ≠ .cortoPlanifica)
    (hnuevo : ∀ cpu fd path tamanio absoluto,
      a = .recibeInitProc cpu fd path tamanio absoluto → pid ≠ k.ultimoPid)
    (hresp : ∀ cpu fd q pc motivo, a = .recibeRespuesta cpu fd q pc motivo →
      (k.cpus cpu).pcbEnEjecucion ≠ some pid) :
    Conserva (vistaPcbs k) (vistaPcbs ((programa c).efecto k a)) pid := by
  cases a with
  | cortoPlanifica => exact absurd rfl hcorto
  | largoElige => exact .mismo (vistaPcbs_elegirCandidato c k)
  | largoEnvia pcb susp | gestorEnvia pcb | dumpEnvia pcb =>
    refine .mismo ?_
    dsimp only [programa, transicion]
    split <;> rfl
  | largoResuelve pcb susp ok =>
    cases ok with
    | false => exact .mismo rfl
    | true => exact conserva_admitir c k pcb susp
  | gestorToma =>
    dsimp only [programa, transicion]
    split
    · exact .mismo rfl
    · exact conserva_cambiarEstado _ _ .exit
  | gestorLibera pcb ok => exact conserva_gestorLibera c k pcb ok
  | suspensionVence q desde bloqueo =>
    dsimp only [programa, transicion]
    split
    · exact .mismo rfl
    · exact .mismo rfl
    split
    · exact conserva_cambiarEstado k _ .suspendedBlocked
    · exact .mismo rfl
  | suspensionResuelve ok =>
    refine .mismo ?_
    dsimp only [programa, transicion]
    split <;> rfl
  | dumpFallaConexion pcb => exact conserva_cambiarEstado k pcb .exit
  | dumpResuelve pcb ok => exact conserva_resolverDump k pcb ok
  | cpuRegistra fd nombre => exact .mismo (vistaPcbs_registrarCpu k fd nombre)
  | interruptRegistra fd nombre =>
    refine .mismo ?_
    dsimp only [programa, transicion]
    split <;> rfl
  | recibeInitProc cpu fd path tamanio absoluto =>
    dsimp only [programa, transicion]
    have hno := hnuevo cpu fd path tamanio absoluto rfl
    split <;> exact conserva_crearPcb c (recibir k fd) path tamanio absoluto hno
  | recibeRespuesta cpu fd q pc motivo =>
    exact conserva_recibirRespuesta c k cpu fd q pc motivo (hresp cpu fd q pc motivo rfl)
  | recibeOtro cpu fd =>
    refine .mismo ?_
    dsimp only [programa, transicion]
    split <;> rfl
  | escuchaCambiaExit cpu pcb => exact conserva_cambiarEstado k pcb .exit
  | escuchaBloquea cpu pcb dispositivo duracion =>
    dsimp only [programa, transicion]
    split
    · exact .mismo rfl
    · exact conserva_bloquearPorIo k pcb duracion
  | escuchaEncola cpu pcb grupo duracion =>
    exact .mismo (vistaPcbs_encolarSolicitud k grupo pcb duracion)
  | escuchaBloqueaDump cpu pcb => exact conserva_cambiarEstado k pcb .blocked
  | escuchaCambiaReady cpu pcb => exact conserva_cambiarEstado k pcb .ready
  | escuchaDesaloja cpu pcb => exact .mismo (vistaPcbs_desalojar c k pcb)
  | escuchaFinaliza cpu pcb => exact conserva_cambiarEstado k pcb .exit
  | escuchaRevisa cpu =>
    dsimp only [programa, transicion]
    split
    · exact .mismo rfl
    · exact conserva_cambiarEstado k _ .exit
  | ioRegistra fd nombre => exact .mismo (vistaPcbs_registrarInstancia k nombre fd)
  | ioDespacha grupo => exact .mismo (vistaPcbs_despacharGrupo k grupo)
  | ioTermina fd nombre terminadas q =>
    dsimp only [programa, transicion, manejarFinIo]
    split
    · exact .mismo rfl
    · exact conserva_despertarDeIo c k q
  | ioDesconecta fd nombre terminadas =>
    exact .mismo (vistaPcbs_manejarDesconexionIo k nombre fd)
  | ioFinaliza pcb resto => exact conserva_cambiarEstado k pcb .exit
  | _ => exact .mismo rfl

end Funciones

end KernelRafagas
