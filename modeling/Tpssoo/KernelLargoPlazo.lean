import Tpssoo.KernelPresentes
import Mathlib.Data.List.Perm.Subperm

/-!
# The long-term planner and the others

Only the long-term planner takes processes out of `cola_new` and `cola_suspended_ready`, and
takes tickets of its semaphore: other threads add at the end of both queues and post. So the
candidate that it chose is still the first of its queue when Memoria answers.
-/
namespace KernelLargoPlazo

open EnterosC Protocolo KernelEstado KernelFunciones KernelHilos KernelVistas KernelPcbs
open KernelPresentes Entrelazado

section Ajenas

/-- The thread of the long-term planner. -/
def planifica : Hilo → Option Unit
  | .largoArranca | .largoEspera | .largoElige | .largoPide _ _ | .largoAguarda _ _
  | .largoResuelve _ _ _ => some ()
  | _ => none

/-- What others may do to what the planner looks at. -/
structure Ajena (k k' : Kernel) : Prop where
  nuevos : k'.colas .new = k.colas .new
  suspendidos : k.colas .suspendedReady <+: k'.colas .suspendedReady
  tickets : k.semProcesosEnNewOMemoriaLibre ≤ k'.semProcesosEnNewOMemoriaLibre

variable {c : ConfigKernel} {k k' k'' : Kernel} {a : Accion}

theorem prefijo_de_igual {xs ys : List ℤ} (h : ys = xs) : xs <+: ys := h ▸ List.prefix_rfl

theorem Ajena.igual (hcolas : k'.colas = k.colas)
    (hsem : k'.semProcesosEnNewOMemoriaLibre = k.semProcesosEnNewOMemoriaLibre) : Ajena k k' := by
  constructor
  · rw [hcolas]
  · exact prefijo_de_igual (congrFun hcolas _)
  · exact hsem.ge

theorem Ajena.trans (h : Ajena k k') (h' : Ajena k' k'') : Ajena k k'' :=
  ⟨h'.nuevos.trans h.nuevos, h.suspendidos.trans h'.suspendidos, h.tickets.trans h'.tickets⟩

theorem ajena_agregar {e : Estado} (he : e ≠ .new) (p : ℤ) : Ajena k (k.agregar e p) := by
  refine ⟨?_, ?_, le_rfl⟩
  · rw [Kernel.colas_agregar, if_neg he.symm]
  · rw [Kernel.colas_agregar]
    split
    · exact List.prefix_append _ _
    · exact List.prefix_rfl

theorem ajena_quitar {e : Estado} (he : e ≠ .new) (he' : e ≠ .suspendedReady) (p : ℤ) :
    Ajena k (k.quitar e p) := by
  constructor
  · rw [Kernel.colas_quitar, if_neg he.symm]
  · exact prefijo_de_igual ((Kernel.colas_quitar k e p _).trans (if_neg he'.symm))
  · exact le_rfl

theorem Ajena.update {e : Estado} {xs : List ℤ} (he : e ≠ .new) (he' : e ≠ .suspendedReady)
    (hcolas : k'.colas = Function.update k.colas e xs)
    (hsem : k'.semProcesosEnNewOMemoriaLibre = k.semProcesosEnNewOMemoriaLibre) : Ajena k k' := by
  constructor
  · rw [hcolas, Function.update_of_ne he.symm]
  · exact prefijo_de_igual ((congrFun hcolas _).trans (Function.update_of_ne he'.symm _ _))
  · exact hsem.ge

/-- A process goes from one queue to another. -/
theorem ajena_pasar {e e' : Estado} (he : e ≠ .new) (he' : e ≠ .suspendedReady) (hn : e' ≠ .new)
    (p : ℤ) (h : k'.colas = ((k.quitar e p).agregar e' p).colas)
    (hsem : k.semProcesosEnNewOMemoriaLibre ≤ k'.semProcesosEnNewOMemoriaLibre) : Ajena k k' := by
  obtain ⟨h₁, h₂, -⟩ := (ajena_quitar he he' p).trans (ajena_agregar hn p) (k := k)
  exact ⟨by rw [h, h₁], by rwa [h], hsem⟩

theorem ajena_bloqueado (p : ℤ) : Ajena k (quitarBloqueado k p) := by
  rw [quitarBloqueado]
  repeat' split
  · exact (ajena_quitar (by decide) (by decide) p).trans (ajena_quitar (by decide) (by decide) p)
  · exact ajena_quitar (by decide) (by decide) p
  · exact ajena_quitar (by decide) (by decide) p
  · exact .igual rfl rfl

theorem ajena_desbloquear (p : ℤ) : Ajena k (desbloquear k p) :=
  ajena_pasar (by decide) (by decide) (by decide) p rfl le_rfl

theorem ajena_desbloquearSuspendido (p : ℤ) : Ajena k (desbloquearSuspendido k p) :=
  ajena_pasar (e := .suspendedBlocked) (by decide) (by decide) (by decide) p rfl (Nat.le_succ _)

theorem ajena_desalojar (p : ℤ) : Ajena k (desalojarSiEsNecesarioSrt c k p) := by
  obtain ⟨e, i, h, -⟩ := desalojar_eq c k p
  rw [h]
  exact .igual rfl rfl

theorem ajena_terminarDump (pid : ℤ) : Ajena k (terminarDump k pid) := by
  rw [terminarDump]
  split
  · exact .igual rfl rfl
  · exact .igual rfl rfl
  split
  · exact ajena_desbloquear _
  split
  · exact ajena_desbloquearSuspendido _
  · exact .igual rfl rfl

theorem ajena_resolverDump (p : ℤ) (ok : Bool) : Ajena k (resolverDump k p ok) := by
  rw [resolverDump]
  split
  · exact .igual rfl rfl
  split
  · exact ajena_terminarDump _
  split
  · exact .igual rfl rfl
  · exact .igual rfl rfl
  · exact (ajena_bloqueado _).trans (.igual rfl rfl)

theorem ajena_despertar (pid : ℤ) : Ajena k (despertarDeIo c k pid) := by
  rw [despertarDeIo]
  split
  · exact .igual rfl rfl
  · exact .igual rfl rfl
  split
  · exact (ajena_desbloquear _).trans (ajena_desalojar _)
  split
  · exact ajena_desbloquearSuspendido _
  · exact .igual rfl rfl

theorem ajena_vaciar (xs : List Solicitud) : Ajena k (vaciarEspera xs k).1 := by
  induction xs generalizing k with
  | nil => exact .igual rfl rfl
  | cons sol xs ih =>
    rw [vaciarEspera]
    split
    · exact .igual rfl rfl
    · exact ih
    · exact (ajena_bloqueado _).trans ih

theorem ajena_desconexion (nombre : List Byte) (fd : ℕ) : Ajena k
    (manejarDesconexionIo k nombre fd).1 := by
  rw [manejarDesconexionIo]
  split
  · exact .igual rfl rfl
  split
  · exact .igual rfl rfl
  split
  · exact .igual rfl rfl
  dsimp only
  split
  · exact (ajena_vaciar _).trans (.igual rfl rfl)
  · exact .igual rfl rfl

theorem ajena_planificar : Ajena k (planificarCortoPlazo c k) := by
  rcases planificar_casos c k with h | h | ⟨pcb, resto, -, -, h⟩ | ⟨pcb, resto, i, cpu, -, -,
      h⟩ <;> rw [h]
  · exact .igual rfl rfl
  · exact .igual rfl rfl
  · exact .update (e := .ready) (by decide) (by decide) rfl rfl
  · have htoma : Ajena k { k with colas := Function.update k.colas .ready resto } :=
      .update (by decide) (by decide) rfl rfl
    have hcolas : (despachado k pcb resto i cpu).colas = Function.update
        (Function.update k.colas .ready resto) .running (k.colas .running ++ [pcb]) := rfl
    exact htoma.trans (.update (by decide) (by decide) hcolas rfl)

/-- The steps of other threads, but the creation of a process. -/
theorem ajena_efecto (ha : planifica ((programa c).origen a) = none)
    (hinit : ∀ cpu fd path tamanio absoluto, a ≠ .recibeInitProc cpu fd path tamanio absoluto) :
    Ajena k ((programa c).efecto k a) := by
  cases a with
  | largoArranca | largoDespierta | largoElige | largoFallaConexion _ _ | largoEnvia _ _
  | largoRecibe _ _ _ | largoResuelve _ _ _ => cases ha
  | recibeInitProc cpu fd path tamanio absoluto =>
    exact absurd rfl (hinit cpu fd path tamanio absoluto)
  | gestorEnvia pcb | dumpEnvia pcb =>
    dsimp only [programa, transicion]
    split <;> exact .igual rfl rfl
  | cortoPlanifica => exact ajena_planificar
  | gestorToma =>
    dsimp only [programa, transicion]
    split
    · exact .igual rfl rfl
    · exact .update (e := .exit) (by decide) (by decide) rfl rfl
  | gestorLibera pcb ok =>
    dsimp only [programa, transicion]
    split
    · exact .igual rfl rfl
    · split
      · exact ⟨rfl, List.prefix_rfl, Nat.le_succ _⟩
      · exact .igual rfl rfl
  | suspensionVence pid desde bloqueo =>
    dsimp only [programa, transicion]
    split
    · exact .igual rfl rfl
    · exact .igual rfl rfl
    split
    · exact ajena_pasar (e := .blocked) (by decide) (by decide) (by decide) _ rfl le_rfl
    · exact .igual rfl rfl
  | suspensionResuelve ok =>
    dsimp only [programa, transicion]
    split
    · exact ⟨rfl, List.prefix_rfl, Nat.le_succ _⟩
    · exact .igual rfl rfl
  | dumpResuelve pcb ok => exact ajena_resolverDump pcb ok
  | dumpFinaliza pcb | dumpFinalizaTomado pcb | escuchaFinalizaAgrega cpu pcb
  | escuchaFinalizaTomado cpu pcb | ioFinalizaAgrega pcb resto =>
    exact (ajena_agregar (e := .exit) (by decide) pcb).trans (.igual rfl rfl)
  | escuchaAgregaExit cpu pcb => exact ajena_agregar (by decide) pcb
  | escuchaAgregaReady cpu pcb => exact ajena_agregar (by decide) pcb
  | escuchaSinDispositivo cpu pcb => exact ajena_quitar (by decide) (by decide) pcb
  | escuchaBloqueaDump cpu pcb =>
    exact ajena_pasar (e := .running) (by decide) (by decide) (by decide) pcb rfl le_rfl
  | escuchaBloquea cpu pcb dispositivo duracion =>
    dsimp only [programa, transicion]
    split
    · exact ajena_quitar (by decide) (by decide) pcb
    · exact ajena_pasar (e := .running) (by decide) (by decide) (by decide) pcb rfl le_rfl
  | cpuRegistra fd nombre =>
    dsimp only [programa, transicion, registrarCpu]
    split <;> exact .igual rfl rfl
  | interruptRegistra fd nombre =>
    dsimp only [programa, transicion]
    split <;> exact .igual rfl rfl
  | recibeRespuesta cpu fd pid pc motivo =>
    dsimp only [programa, transicion, recibirRespuesta]
    split
    · exact .igual rfl rfl
    split
    · exact .igual rfl rfl
    split
    · exact (ajena_quitar (by decide) (by decide) _).trans (.igual rfl rfl)
    · exact (ajena_quitar (by decide) (by decide) _).trans (.igual rfl rfl)
  | recibeOtro cpu fd =>
    dsimp only [programa, transicion]
    split
    · exact .igual rfl rfl
    · exact (ajena_quitar (by decide) (by decide) _).trans (.igual rfl rfl)
  | escuchaEncola cpu pcb grupo duracion =>
    dsimp only [programa, transicion, encolarSolicitud]
    split <;> exact .igual rfl rfl
  | escuchaDesaloja cpu pcb => exact ajena_desalojar pcb
  | escuchaRevisa cpu =>
    dsimp only [programa, transicion]
    split
    · exact .igual rfl rfl
    · exact (ajena_quitar (by decide) (by decide) _).trans (.igual rfl rfl)
  | ioRegistra fd nombre =>
    dsimp only [programa, transicion, registrarInstancia]
    split <;> exact .igual rfl rfl
  | ioDespacha grupo =>
    dsimp only [programa, transicion, despacharGrupo]
    split <;> exact .igual rfl rfl
  | ioTermina fd nombre terminadas pid =>
    dsimp only [programa, transicion, manejarFinIo]
    split
    · exact .igual rfl rfl
    · exact (ajena_despertar (c := c) pid).trans (.igual rfl rfl)
  | ioDesconecta fd nombre terminadas => exact ajena_desconexion nombre fd
  | _ => exact .igual rfl rfl

theorem planifica_destino (ha : planifica ((programa c).origen a) = none) :
    ∀ d ∈ (programa c).destino k a, planifica d = none := by
  cases a with
  | largoArranca | largoDespierta | largoElige | largoFallaConexion _ _ | largoEnvia _ _
  | largoRecibe _ _ _ | largoResuelve _ _ _ => cases ha
  | recibeRespuesta cpu fd q pc motivo =>
    dsimp only [programa, transicion, trasRespuesta]
    repeat' split
    all_goals cases motivo <;> simp [segunMotivo, planifica]
  | _ =>
    dsimp only [programa, transicion, trasDump]
    repeat' split
    all_goals simp [planifica]

/-- The planner goes on as one thread. -/
theorem planifica_sigue (ha : planifica ((programa c).origen a) = some ()) :
    ∃ d, (programa c).destino k a = [d] := by
  cases a with
  | largoArranca | largoDespierta => exact ⟨_, rfl⟩
  | largoFallaConexion _ _ | largoEnvia _ _ | largoRecibe _ _ _ => exact ⟨_, rfl⟩
  | largoElige =>
    dsimp only [programa, transicion]
    split <;> exact ⟨_, rfl⟩
  | largoResuelve pcb susp ok =>
    dsimp only [programa, transicion]
    split <;> exact ⟨_, rfl⟩
  | _ => cases ha

end Ajenas

section Colas

variable {c : ConfigKernel} {k : Kernel} {a : Accion}

theorem crear_nuevos (path : List Byte) (tamanio : ℤ) (absoluto : Option (List Byte)) :
    (crearPcb c k path tamanio absoluto).colas .new = k.colas .new ++ [k.ultimoPid] ∧
      (crearPcb c k path tamanio absoluto).colas .suspendedReady = k.colas .suspendedReady ∧
      (crearPcb c k path tamanio absoluto).ultimoPid = k.ultimoPid + 1 ∧
      ∃ p : Pcb, (crearPcb c k path tamanio absoluto).pcbs =
        Function.update k.pcbs k.ultimoPid (some p) ∧
        p.tamanioProceso = tamanio := by
  rw [crearPcb]
  split <;>
  · refine ⟨?_, ?_, rfl, _, rfl, rfl⟩
    · simp [Kernel.postNewOMemoria, Kernel.agregar]
    · simp [Kernel.postNewOMemoria, Kernel.agregar]

theorem crear_tickets (path : List Byte) (tamanio : ℤ) (absoluto : Option (List Byte)) :
    k.semProcesosEnNewOMemoriaLibre ≤
        (crearPcb c k path tamanio absoluto).semProcesosEnNewOMemoriaLibre ∧
      (k.colas .new = [] → 0 < (crearPcb c k path tamanio
        absoluto).semProcesosEnNewOMemoriaLibre) := by
  rw [crearPcb]
  split
  · exact ⟨Nat.le_succ _, fun _ => Nat.succ_pos _⟩
  · next h => exact ⟨le_rfl, fun h' => absurd (List.isEmpty_iff.mpr h') h⟩

/-- The kernel after `INIT_PROC`, as far as the planner sees. -/
theorem initProc_igual (cpu fd : ℕ) (path : List Byte) (tamanio : ℤ)
    (absoluto : Option (List Byte)) :
    ∃ e, (programa c).efecto k (.recibeInitProc cpu fd path tamanio absoluto) =
      { crearPcb c (recibir k fd) path tamanio absoluto with enviados := e } := by
  dsimp only [programa, transicion]
  split
  · exact ⟨_, rfl⟩
  · exact ⟨_, rfl⟩

theorem ultimoPid_efecto : k.ultimoPid ≤ ((programa c).efecto k a).ultimoPid := by
  have hcambio : Cambio _ (vistaPcbs k) (vistaPcbs ((programa c).efecto k a)) 0 :=
      cambio_efecto c k a
  rcases hcambio with ⟨hn, -⟩ | ⟨hn, -⟩ | ⟨hn, -⟩ | ⟨-, hn, -⟩
  · exact hn
  · exact hn
  · exact (Int.le_add_one le_rfl).trans hn.ge
  · exact hn

theorem elegir_colas (e : Estado) : ((elegirCandidato c k).colas e).Perm (k.colas e) := by
  rw [elegirCandidato]
  split
  · exact .refl _
  · dsimp only
    by_cases h : e = colaAAdmitir k
    · subst h
      rw [Function.update_self]
      exact ordenLargoPlazo_perm _
    · rw [Function.update_of_ne h]

theorem admitir_colas (pcb : ℤ) (susp : Bool) :
    (admitir c k pcb susp).colas .new = (if susp then k.colas .new else (k.colas .new).tail) ∧
      (admitir c k pcb susp).colas .suspendedReady =
        if susp then (k.colas .suspendedReady).tail else k.colas .suspendedReady := by
  obtain ⟨e, i, h, -⟩ := admitir_eq c k pcb susp
  rw [h]
  cases susp <;> simp [colaDe]

/-- Others only add to `cola_new`. -/
theorem nuevos_ajenos (hpl : planifica ((programa c).origen a) = none) :
    k.colas .new <+: ((programa c).efecto k a).colas .new := by
  by_cases hinit : ∃ cpu fd path tamanio absoluto, a = .recibeInitProc cpu fd path tamanio absoluto
  · obtain ⟨cpu, fd, path, tamanio, absoluto, rfl⟩ := hinit
    obtain ⟨e, he⟩ := initProc_igual (c := c) (k := k) cpu fd path tamanio absoluto
    have hnew : (crearPcb c (recibir k fd) path tamanio absoluto).colas .new =
      k.colas .new ++ [k.ultimoPid] := (crear_nuevos path tamanio absoluto).1
    rw [he, hnew]
    exact List.prefix_append _ _
  · have h := ajena_efecto (k := k) hpl fun cpu fd path tamanio absoluto heq =>
      hinit ⟨cpu, fd, path, tamanio, absoluto, heq⟩
    exact prefijo_de_igual h.nuevos

theorem suspendidos_ajenos (hpl : planifica ((programa c).origen a) = none) :
    k.colas .suspendedReady <+: ((programa c).efecto k a).colas .suspendedReady ∧
      k.semProcesosEnNewOMemoriaLibre ≤
        ((programa c).efecto k a).semProcesosEnNewOMemoriaLibre := by
  by_cases hinit : ∃ cpu fd path tamanio absoluto, a = .recibeInitProc cpu fd path tamanio absoluto
  · obtain ⟨cpu, fd, path, tamanio, absoluto, rfl⟩ := hinit
    obtain ⟨e, he⟩ := initProc_igual (c := c) (k := k) cpu fd path tamanio absoluto
    have hsusp : (crearPcb c (recibir k fd) path tamanio absoluto).colas .suspendedReady =
      k.colas .suspendedReady := (crear_nuevos path tamanio absoluto).2.1
    rw [he, hsusp]
    exact ⟨List.prefix_rfl, (crear_tickets (k := recibir k fd) path tamanio absoluto).1⟩
  · have h := ajena_efecto (k := k) hpl fun cpu fd path tamanio absoluto heq =>
      hinit ⟨cpu, fd, path, tamanio, absoluto, heq⟩
    exact ⟨h.suspendidos, h.tickets⟩

end Colas

section Candidato

variable {c : ConfigKernel} {k : Kernel} {l r : List Hilo} {a : Accion}

/-- The candidate that the planner has in its hands, and whether it was suspended. -/
def candidatoDe : Hilo → Option (ℤ × Bool)
  | .largoPide pcb susp | .largoAguarda pcb susp | .largoResuelve pcb susp _ => some (pcb, susp)
  | _ => none

/-- There is one planner, and its candidate is the first of its queue. -/
structure Planificador (s : Sistema Kernel Hilo) : Prop where
  unico : Unico planifica s.hilos
  candidato : s.comun.indefinido = false → ∀ h ∈ s.hilos, ∀ p susp, candidatoDe h = some (p, susp) →
    (s.comun.colas (colaDe susp)).head? = some p

theorem candidato_planifica {h : Hilo} {p : ℤ} {susp : Bool} (hc : candidatoDe h = some (p, susp)) :
    planifica h = some () := by
  cases h <;> first | rfl | cases hc

theorem solo_planifica (hI : Planificador ⟨k, l ++ (programa c).origen a :: r⟩)
    (ha : planifica ((programa c).origen a) = some ()) : ∀ d ∈ l ++ r, planifica d = none := by
  intro d hd
  have hno := hI.unico.solo ha
  cases h : planifica d with
  | none => rfl
  | some u => exact absurd (List.mem_filterMap.mpr ⟨d, hd, h⟩) hno

theorem colaDe_aAdmitir : colaDe (decide (colaAAdmitir k = .suspendedReady)) = colaAAdmitir k := by
  rw [colaAAdmitir]
  split <;> rfl

/-- The candidate that the planner has after a step. -/
theorem candidato_destino (hI : Planificador ⟨k, l ++ (programa c).origen a :: r⟩)
    (hk : k.indefinido = false) (hdef : ((programa c).efecto k a).indefinido = false)
    {d : Hilo} {p : ℤ}
    {susp : Bool} (hd : d ∈ (programa c).destino k a) (hp : candidatoDe d = some (p, susp)) :
    (((programa c).efecto k a).colas (colaDe susp)).head? = some p := by
  have hor := hI.candidato hk _ (List.mem_append_right _ List.mem_cons_self)
  cases hpl : planifica ((programa c).origen a) with
  | none =>
    have hno := planifica_destino hpl d hd
    rw [candidato_planifica hp] at hno
    cases hno
  | some u =>
    cases a with
    | largoElige =>
      dsimp only [programa, transicion] at hd hdef
      split at hd
      · rw [List.mem_singleton.mp hd] at hp
        cases hp
      next pcb hhead =>
      rw [List.mem_singleton.mp hd] at hp
      cases hp
      rw [colaDe_aAdmitir]
      dsimp only [programa, transicion]
      rw [elegirCandidato] at hdef ⊢
      split at hdef
      · cases hdef
      · next hvivos =>
          rw [if_neg hvivos]
          dsimp only
          rw [Function.update_self]
          exact hhead
    | largoFallaConexion pcb susp' | largoRecibe pcb susp' ok =>
      rw [List.mem_singleton.mp hd] at hp
      exact hor p susp hp
    | largoEnvia pcb susp' =>
      have hcolas : ((programa c).efecto k (.largoEnvia pcb susp')).colas = k.colas := by
        dsimp only [programa, transicion]
        split <;> rfl
      rw [hcolas]
      rw [List.mem_singleton.mp hd] at hp
      exact hor p susp hp
    | largoArranca | largoDespierta =>
      rw [List.mem_singleton.mp hd] at hp
      cases hp
    | largoResuelve pcb susp' ok =>
      dsimp only [programa, transicion] at hd
      split at hd <;>
      · rw [List.mem_singleton.mp hd] at hp
        cases hp
    | _ => cases hpl

theorem planificador_paso (hI : Planificador ⟨k, l ++ (programa c).origen a :: r⟩)
    (hk : k.indefinido = false) :
    Planificador ⟨(programa c).efecto k a, l ++ ((programa c).destino k a ++ r)⟩ := by
  constructor
  · cases hpl : planifica ((programa c).origen a) with
    | none =>
      refine hI.unico.mueve ?_
      rw [List.filterMap_eq_nil_iff.mpr (planifica_destino hpl)]
      exact List.nil_sublist _
    | some u =>
      obtain ⟨d, hd⟩ := planifica_sigue (c := c) (k := k) hpl
      refine hI.unico.mueve ?_
      rw [hd, List.filterMap_cons_some hpl, List.filterMap_cons]
      split
      · exact List.nil_sublist _
      · exact List.Sublist.refl _
  · intro hdef h hmem p susp hp
    have hviejo : h ∈ l ++ r → (((programa c).efecto k a).colas (colaDe susp)).head? = some p := by
      intro hmem
      cases hpl : planifica ((programa c).origen a) with
      | none =>
        have hantes : h ∈ l ++ (programa c).origen a :: r := by
          simp only [List.mem_append, List.mem_cons] at hmem ⊢
          tauto
        have hprefijo : k.colas (colaDe susp) <+: ((programa c).efecto k a).colas
            (colaDe susp) := by
          cases susp with
          | false => exact nuevos_ajenos hpl
          | true => exact (suspendidos_ajenos hpl).1
        obtain ⟨xs, hxs⟩ := hprefijo
        have hhead : (k.colas (colaDe susp)).head? = some p := hI.candidato hk h hantes p susp hp
        rw [← hxs, List.head?_append, hhead]
        rfl
      | some u =>
        have hno := solo_planifica hI hpl h hmem
        rw [candidato_planifica hp] at hno
        cases hno
    simp only [List.mem_append] at hmem
    rcases hmem with hmem | hmem | hmem
    · exact hviejo (List.mem_append_left _ hmem)
    · exact candidato_destino hI hk hdef hmem hp
    · exact hviejo (List.mem_append_right _ hmem)

theorem planificador_inicial (c : ConfigKernel) (path : List Byte) (tamanio : ℤ)
    (absoluto : Option (List Byte)) : Planificador (arranque c path tamanio absoluto) := by
  constructor
  · exact List.pairwise_singleton _ _
  · simp [arranque, candidatoDe]

end Candidato

end KernelLargoPlazo
