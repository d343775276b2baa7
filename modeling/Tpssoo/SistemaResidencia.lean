import Tpssoo.KernelActivos
import Tpssoo.KernelPedidos
import Tpssoo.MemoriaResidencia
import Tpssoo.SistemaConjunto

/-!
# A ready process is in frames

From the moment a process is suspended until Memoria agrees to bring it back it is loose: its
pages may be in swap, or the request that sends them there may still arrive. While no
`DESUSPENDER_PROCESO` overtakes a `SUSPENDER_PROCESO` of the same process, a loose process is
never active.
-/
namespace SistemaResidencia

open EnterosC Protocolo KernelEstado KernelFunciones KernelHilos KernelPcbs KernelPresentes
open KernelLargoPlazo KernelCpus KernelEjecucion KernelActivos KernelSuspension KernelLugares
open KernelPedidos MemoriaEstado MemoriaPaginacion MemoriaPeticiones MemoriaEfectos
open MemoriaResidencia SistemaConjunto Entrelazado Tartamudeo

variable {cfg : Config} {c : ConfigKernel} {s s' : Conjunto cfg} {p : ℤ}

/-- Memoria has yet to handle a `SUSPENDER_PROCESO` of the process. -/
def Pendiente (s : Conjunto cfg) (p : ℤ) : Prop :=
  .suspensionPide p ∈ s.kernel.hilos ∨
    ∃ x ∈ s.conexiones, x.peticion = .suspenderProceso p ∧ x.respuesta = none

instance (s : Conjunto cfg) (p : ℤ) : Decidable (Pendiente s p) :=
  inferInstanceAs (Decidable (_ ∨ _))

def sinAdelantos (s : Conjunto cfg) : Evento → Bool
  | .kernel _ (.recibeRespuesta cpu _ _ _ _) =>
    decide (∀ q ∈ (s.kernel.comun.cpus cpu).pcbEnEjecucion, q ∈ s.kernel.comun.colas .running)
  | .atiende _ j =>
    match s.conexiones[j]? with
    | some ⟨_, .desuspenderProceso p, _⟩ => decide (¬ Pendiente s p)
    | _ => true
  | _ => true

/-- Memoria handles no `DESUSPENDER_PROCESO` before a `SUSPENDER_PROCESO` that the kernel decided
on earlier, and a response of a CPU is about a process of `cola_exec`. -/
def SinAdelantos (e : Evento) (s : Conjunto cfg) : Prop := sinAdelantos s e = true

instance (e : Evento) (s : Conjunto cfg) : Decidable (SinAdelantos e s) :=
  inferInstanceAs (Decidable (_ = true))

/-- The pages of the process are not all in frames, or may cease to be. -/
def Suelta (s : Conjunto cfg) (p : ℤ) : Prop := Pendiente s p ∨ ¬ Residente s.memoria p

/-- Memoria has agreed to bring the process back, and the planner has not admitted it yet. -/
def Aprobada (s : Conjunto cfg) (p : ℤ) : Prop :=
  .largoResuelve p true true ∈ s.kernel.hilos ∨
    ∃ x ∈ s.conexiones, x.hilo = .largoAguarda p true ∧
      ∃ envios, x.respuesta = some envios ∧ confirma .desuspensionOk envios = true

/-- A connection of the planner belongs to a thread that waits, and asks for its process. -/
structure Conexas (s : Conjunto cfg) : Prop where
  esperan : ∀ p susp, (s.conexiones.map Conexion.hilo).count (.largoAguarda p susp) ≤
    s.kernel.hilos.count (.largoAguarda p susp)
  piden : ∀ x ∈ s.conexiones, ∀ p, x.hilo = .largoAguarda p true →
    x.peticion = .desuspenderProceso p

structure Residencia (s : Conjunto cfg) : Prop where
  planificador : Planificador s.kernel
  unaVez : UnaVez s.kernel
  pids : Pids s.kernel.comun
  memoria : Paginas s.memoria
  conexas : Conexas s
  sueltas : ∀ p, Suelta s p → p < s.kernel.comun.ultimoPid ∧ ¬ Aprobada s p
  activos : Activos (fun p => ¬ Suelta s p) s.kernel.comun
  manos : ∀ h ∈ s.kernel.hilos, ∀ p, enMano h = some p → ¬ Suelta s p

section Kernel

variable {k : Kernel} {a : Accion} {l r : List Hilo}

/-- A thread that will ask Memoria to suspend a process has just suspended it in the kernel. -/
theorem pide_destino (h : .suspensionPide p ∈ (programa c).destino k a) :
    estadoDe k p = some .blocked ∧
      estadoDe ((programa c).efecto k a) p = some .suspendedBlocked := by
  cases a with
  | suspensionVence pid desde bloqueo =>
    dsimp only [programa, transicion] at h ⊢
    split at h
    · next q hq =>
        obtain rfl : q = pid := buscarEnCola_eq hq
        split at h
        · next hest =>
            obtain rfl : p = q := by simpa using h
            rw [hq]
            dsimp only
            rw [if_pos hest]
            refine ⟨hest, ?_⟩
            have hcambia : estadoDe (suspender k p) p =
                estadoDe (k.cambiarEstado p .suspendedBlocked) p := rfl
            rw [hcambia, estadoDe_cambiarEstado, if_pos rfl, hest]
            rfl
        · cases h
    · cases h
  | recibeRespuesta cpu fd pid pc motivo =>
    dsimp only [programa, transicion, trasRespuesta] at h
    repeat' split at h
    all_goals first
      | (simp at h; done)
      | (cases motivo <;> simp [segunMotivo] at h)
  | _ =>
    dsimp only [programa, transicion, trasDump] at h
    repeat' split at h
    all_goals simp at h

/-- A process in two places of those where it may be at most once. -/
theorem no_dos (hI : UnaVez ⟨k, l⟩) (h : espera k p = 1) :
    (∀ e, e = .new ∨ e = .ready ∨ e = .suspendedReady ∨ e = .running → p ∉ k.colas e) ∧
      ∀ d ∈ l, enMano d ≠ some p := by
  have huno := hI.todos p
  dsimp only [peso] at huno
  constructor
  · intro e he hmem
    have hcuenta := List.count_pos_iff.mpr hmem
    rcases he with rfl | rfl | rfl | rfl <;> omega
  · intro d hd hmano
    have hcuenta := List.count_pos_iff.mpr (List.mem_filterMap.mpr ⟨d, hd, hmano⟩)
    omega

end Kernel

section Mueve

variable {k : Kernel} {a : Accion} {l r : List Hilo} {m : Memoria cfg} {xs ys : List Conexion}

theorem abre_suspende {x : Conexion} (h : abre k a = some x)
    (hp : x.peticion = .suspenderProceso p) : a = .suspensionEnvia p := by
  cases a with
  | largoEnvia pcb susp =>
    obtain ⟨y, -, rfl⟩ := Option.map_eq_some_iff.mp h
    dsimp only at hp
    split at hp <;> cases hp
  | gestorEnvia pcb | dumpEnvia pcb =>
    obtain ⟨y, -, rfl⟩ := Option.map_eq_some_iff.mp h
    cases hp
  | suspensionEnvia pid =>
    cases h
    cases hp
    rfl
  | _ => cases h

/-- A step of the kernel leaves a request to suspend where it was, or is the suspension. -/
theorem pendiente_mueve
    (hys : ∀ x ∈ ys, x.respuesta = none → x ∈ xs ∨ abre k a = some x)
    (h : Pendiente ⟨⟨(programa c).efecto k a, l ++ ((programa c).destino k a ++ r)⟩, m, ys⟩ p) :
    Pendiente ⟨⟨k, l ++ (programa c).origen a :: r⟩, m, xs⟩ p ∨
      .suspensionPide p ∈ (programa c).destino k a := by
  rcases h with h | ⟨x, hx, hpet, hresp⟩
  · simp only [List.mem_append] at h
    rcases h with h | h | h
    · exact Or.inl (Or.inl (List.mem_append_left _ h))
    · exact Or.inr h
    · exact Or.inl (Or.inl (List.mem_append_right _ (List.mem_cons_of_mem _ h)))
  · rcases hys x hx hresp with hx | habre
    · exact Or.inl (Or.inr ⟨x, hx, hpet, hresp⟩)
    · obtain rfl := abre_suspende habre hpet
      exact Or.inl (Or.inl (List.mem_append_right _ List.mem_cons_self))

theorem resuelve_destino (h : .largoResuelve p true true ∈ (programa c).destino k a) :
    a = .largoRecibe p true true := by
  cases a with
  | largoRecibe pcb susp ok =>
    dsimp only [programa, transicion] at h
    obtain ⟨rfl, rfl, rfl⟩ : p = pcb ∧ true = susp ∧ true = ok := by
      simpa using h
    rfl
  | largoResuelve pcb susp ok =>
    dsimp only [programa, transicion] at h
    split at h <;> simp at h
  | recibeRespuesta cpu fd pid pc motivo =>
    dsimp only [programa, transicion, trasRespuesta] at h
    repeat' split at h
    all_goals first
      | (simp at h; done)
      | (cases motivo <;> simp [segunMotivo] at h)
  | _ =>
    dsimp only [programa, transicion, trasDump] at h
    repeat' split at h
    all_goals simp at h

/-- The planner learns of an approval from its connection only. -/
theorem aprobada_mueve
    (hys : ∀ x ∈ ys, x.respuesta ≠ none → x ∈ xs)
    (hrecibe : a = .largoRecibe p true true →
      Aprobada ⟨⟨k, l ++ (programa c).origen a :: r⟩, m, xs⟩ p)
    (h : Aprobada ⟨⟨(programa c).efecto k a, l ++ ((programa c).destino k a ++ r)⟩, m, ys⟩ p) :
    Aprobada ⟨⟨k, l ++ (programa c).origen a :: r⟩, m, xs⟩ p := by
  rcases h with h | ⟨x, hx, hhilo, envios, hresp, hok⟩
  · simp only [List.mem_append] at h
    rcases h with h | h | h
    · exact Or.inl (List.mem_append_left _ h)
    · exact hrecibe (resuelve_destino h)
    · exact Or.inl (List.mem_append_right _ (List.mem_cons_of_mem _ h))
  · have hvieja : x ∈ xs := hys x hx (by rw [hresp]; exact Option.some_ne_none _)
    exact Or.inr ⟨x, hvieja, hhilo, envios, hresp, hok⟩

/-- The process that Memoria agreed to bring back is the first of `cola_suspended_ready`. -/
theorem aprobada_candidato (hI : Residencia s) (hdef : s.kernel.comun.indefinido = false)
    (h : Aprobada s p) : p ∈ s.kernel.comun.colas .suspendedReady := by
  have hcandidato : ∀ d ∈ s.kernel.hilos, candidatoDe d = some (p, true) →
      p ∈ s.kernel.comun.colas .suspendedReady := by
    intro d hd hcand
    exact List.mem_of_mem_head? (hI.planificador.candidato hdef d hd p true hcand)
  rcases h with h | ⟨x, hx, hhilo, -⟩
  · exact hcandidato _ h rfl
  · refine hcandidato (.largoAguarda p true) ?_ rfl
    have hcuenta : 0 < (s.conexiones.map Conexion.hilo).count (.largoAguarda p true) :=
      List.count_pos_iff.mpr (List.mem_map.mpr ⟨x, hx, hhilo⟩)
    exact List.count_pos_iff.mp (hcuenta.trans_le (hI.conexas.esperan p true))

/-- What a step of the kernel keeps, whatever it does to its connections. -/
theorem residencia_mueve
    (hI : Residencia ⟨⟨k, l ++ (programa c).origen a :: r⟩, m, xs⟩)
    (hg : (programa c).guarda k a)
    (hexec : ∀ cpu fd pid pc motivo q, a = .recibeRespuesta cpu fd pid pc motivo →
      (k.cpus cpu).pcbEnEjecucion = some q → q ∈ k.colas .running)
    (hconexas : Conexas
      ⟨⟨(programa c).efecto k a, l ++ ((programa c).destino k a ++ r)⟩, m, ys⟩)
    (hnuevas : ∀ x ∈ ys, x.respuesta = none → x ∈ xs ∨ abre k a = some x)
    (hviejas : ∀ x ∈ ys, x.respuesta ≠ none → x ∈ xs)
    (hrecibe : ∀ p, a = .largoRecibe p true true →
      Aprobada ⟨⟨k, l ++ (programa c).origen a :: r⟩, m, xs⟩ p) :
    Residencia ⟨⟨(programa c).efecto k a, l ++ ((programa c).destino k a ++ r)⟩, m, ys⟩ := by
  have hplanificador := planificador_paso hI.planificador hg.1
  have hunaVez := unaVez_de hI.planificador hI.unaVez hg.1 hexec
  have hor : (programa c).origen a ∈ l ++ (programa c).origen a :: r :=
    List.mem_append_right _ List.mem_cons_self
  -- a process that becomes loose has just been suspended, and it is nowhere else
  have hsuelta : ∀ p, Suelta ⟨⟨(programa c).efecto k a, l ++ ((programa c).destino k a ++ r)⟩,
      m, ys⟩ p → Suelta ⟨⟨k, l ++ (programa c).origen a :: r⟩, m, xs⟩ p ∨
        estadoDe k p = some .blocked ∧
          estadoDe ((programa c).efecto k a) p = some .suspendedBlocked := by
    rintro p (hp | hp)
    · rcases pendiente_mueve hnuevas hp with hp | hp
      · exact Or.inl (Or.inl hp)
      · exact Or.inr (pide_destino hp)
    · exact Or.inl (Or.inr hp)
  have hmano : ∀ p, enMano ((programa c).origen a) = some p →
      ¬ Suelta ⟨⟨k, l ++ (programa c).origen a :: r⟩, m, xs⟩ p := hI.manos _ hor
  have hactivos : Activos _ ((programa c).efecto k a) :=
    activos_efecto hI.activos (fun hp => lt_irrefl _ (hI.sueltas _ hp).1) hmano ?_
  · have hmanos : ∀ d ∈ l ++ ((programa c).destino k a ++ r), ∀ p, enMano d = some p →
        ¬ Suelta ⟨⟨k, l ++ (programa c).origen a :: r⟩, m, xs⟩ p := by
      intro d hd
      simp only [List.mem_append] at hd
      rcases hd with hd | hd | hd
      · exact hI.manos d (List.mem_append_left _ hd)
      · exact manos_efecto hI.activos hexec hmano d hd
      · exact hI.manos d (List.mem_append_right _ (List.mem_cons_of_mem _ hd))
    refine ⟨hplanificador, hunaVez, pids_efecto hI.pids, hI.memoria, hconexas, ?_, ⟨?_, ?_⟩, ?_⟩
    · intro p hp
      rcases hsuelta p hp with hp | ⟨hest, -⟩
      · obtain ⟨hlt, hno⟩ := hI.sueltas p hp
        exact ⟨hlt.trans_le ultimoPid_efecto, fun h => hno (aprobada_mueve hviejas (hrecibe p) h)⟩
      · have huno := espera_de_estado (Or.inl hest)
        constructor
        · by_contra hge
          have hle : k.ultimoPid ≤ p := ultimoPid_efecto.trans (not_lt.mp hge)
          have hcero : peso k p + _ = 0 := hI.unaVez.nuevos p hle
          rw [peso] at hcero
          omega
        · intro h
          have hcola := aprobada_candidato hI hg.1 (aprobada_mueve hviejas (hrecibe p) h)
          exact (no_dos hI.unaVez huno).1 .suspendedReady (by decide) hcola
    · intro e he p hmem hp
      rcases hsuelta p hp with hp | ⟨-, hest⟩
      · exact hactivos.colas e he p hmem hp
      · have hno := (no_dos hunaVez (espera_de_estado (Or.inr hest))).1 e
        cases e <;> first | exact hno (by decide) hmem | cases he
    · intro p hblocked hp
      rcases hsuelta p hp with hp | ⟨-, hest⟩
      · exact hactivos.bloqueados p hblocked hp
      · cases hest.symm.trans hblocked
    · intro d hd p hdp hp
      rcases hsuelta p hp with hp | ⟨-, hest⟩
      · exact hmanos d hd p hdp hp
      · exact (no_dos hunaVez (espera_de_estado (Or.inr hest))).2 d hd hdp
  · rintro p susp rfl hp
    cases susp with
    | false =>
      have hcand := hI.planificador.candidato hg.1 _ hor p false rfl
      exact hI.activos.colas .new rfl p (List.mem_of_mem_head? hcand) hp
    | true => exact (hI.sueltas p hp).2 (Or.inl hor)

theorem origen_aguarda {susp : Bool} (h : (programa c).origen a = .largoAguarda p susp) :
    ∃ ok, a = .largoRecibe p susp ok := by
  cases a with
  | largoRecibe pcb susp' ok =>
    cases h
    exact ⟨ok, rfl⟩
  | _ => cases h

theorem cuenta_hilos (h : Hilo) : (l ++ (programa c).origen a :: r).count h =
    l.count h + (r.count h + if (programa c).origen a = h then 1 else 0) := by
  rw [List.count_append, List.count_cons]
  simp

/-- A new connection belongs to the thread that waits for its answer. -/
theorem conexas_abre (hP : Pids k) (hespera : espera a = none)
    (hI : Conexas ⟨⟨k, l ++ (programa c).origen a :: r⟩, m, xs⟩) :
    Conexas ⟨⟨(programa c).efecto k a, l ++ ((programa c).destino k a ++ r)⟩, m,
      xs ++ (abre k a).toList⟩ := by
  constructor
  · intro p susp
    have hantes := hI.esperan p susp
    dsimp only at hantes ⊢
    have hor : (programa c).origen a ≠ .largoAguarda p susp := by
      intro heq
      obtain ⟨ok, rfl⟩ := origen_aguarda heq
      cases hespera
    have hnueva : (((abre k a).toList).map Conexion.hilo).count (.largoAguarda p susp) ≤
        ((programa c).destino k a).count (.largoAguarda p susp) := by
      cases a with
      | largoEnvia pcb susp' =>
        dsimp only [abre, programa, transicion]
        cases k.pcbs pcb with
        | none => exact Nat.zero_le _
        | some x => exact le_rfl
      | gestorEnvia pcb | dumpEnvia pcb =>
        dsimp only [abre]
        cases k.pcbs pcb with
        | none => exact Nat.zero_le _
        | some x => exact (List.count_eq_zero.mpr (by simp)).le.trans (Nat.zero_le _)
      | suspensionEnvia pid =>
        exact (List.count_eq_zero.mpr (by simp [abre])).le.trans (Nat.zero_le _)
      | _ => exact Nat.zero_le _
    rw [cuenta_hilos, if_neg hor] at hantes
    rw [List.map_append, List.count_append, List.count_append, List.count_append]
    omega
  · intro x hx p hhilo
    rcases List.mem_append.mp hx with hx | hx
    · exact hI.piden x hx p hhilo
    · have habre : abre k a = some x := by simpa using hx
      cases a with
      | largoEnvia pcb susp =>
        obtain ⟨y, hy, rfl⟩ := Option.map_eq_some_iff.mp habre
        cases hhilo
        dsimp only
        rw [if_pos rfl, hP.propios _ y hy]
      | gestorEnvia pcb | dumpEnvia pcb =>
        obtain ⟨y, -, rfl⟩ := Option.map_eq_some_iff.mp habre
        cases hhilo
      | suspensionEnvia pid =>
        cases habre
        cases hhilo
      | _ => cases habre

/-- The thread that takes an answer closes its connection. -/
theorem conexas_recibe {x : Conexion} {j : ℕ} (hx : xs[j]? = some x)
    (hhilo : x.hilo = (programa c).origen a)
    (hI : Conexas ⟨⟨k, l ++ (programa c).origen a :: r⟩, m, xs⟩) :
    Conexas ⟨⟨(programa c).efecto k a, l ++ ((programa c).destino k a ++ r)⟩, m,
      xs.eraseIdx j⟩ := by
  obtain ⟨hlt, hget⟩ := List.getElem?_eq_some_iff.mp hx
  have hperm : (x :: xs.eraseIdx j).Perm xs := hget ▸ List.getElem_cons_eraseIdx_perm hlt
  constructor
  · intro p susp
    have hantes := hI.esperan p susp
    have hcuenta := (hperm.map Conexion.hilo).count_eq (.largoAguarda p susp)
    dsimp only at hantes ⊢
    rw [List.map_cons, List.count_cons, hhilo] at hcuenta
    rw [cuenta_hilos] at hantes
    rw [List.count_append, List.count_append]
    by_cases heq : (programa c).origen a = .largoAguarda p susp
    · rw [if_pos heq] at hantes
      rw [heq] at hcuenta
      simp at hcuenta
      omega
    · rw [if_neg heq] at hantes
      simp [heq] at hcuenta
      omega
  · intro y hy p
    exact hI.piden y (List.mem_of_mem_eraseIdx hy) p

end Mueve

section Memoria

variable {m : Memoria cfg} {xs : List Conexion}

/-- A step of Memoria: what it leaves loose was loose, and it approves no loose process. -/
theorem residencia_memoria (hI : Residencia s) (hmemoria : Paginas m)
    (hconexas : Conexas ⟨s.kernel, m, xs⟩)
    (hsuelta : ∀ p, Suelta ⟨s.kernel, m, xs⟩ p → Suelta s p)
    (haprobada : ∀ p, Aprobada ⟨s.kernel, m, xs⟩ p → Aprobada s p ∨
      ¬ Suelta ⟨s.kernel, m, xs⟩ p) : Residencia ⟨s.kernel, m, xs⟩ := by
  refine ⟨hI.planificador, hI.unaVez, hI.pids, hmemoria, hconexas, ?_, ⟨?_, ?_⟩, ?_⟩
  · intro p hp
    obtain ⟨hlt, hno⟩ := hI.sueltas p (hsuelta p hp)
    refine ⟨hlt, fun h => ?_⟩
    rcases haprobada p h with h | h
    · exact hno h
    · exact h hp
  · intro e he p hmem hp
    exact hI.activos.colas e he p hmem (hsuelta p hp)
  · intro p hblocked hp
    exact hI.activos.bloqueados p hblocked (hsuelta p hp)
  · intro d hd p hdp hp
    exact hI.manos d hd p hdp (hsuelta p hp)

theorem residencia_accede {env : Entorno} {peticion : Peticion} {envios : List Envio}
    (hI : Residencia s) (hcpu : deCpu peticion = true)
    (hat : atenderPostHandshake env s.memoria peticion = some (envios, m)) :
    Residencia ⟨s.kernel, m, s.conexiones⟩ := by
  have hef := efecto_de_atender hI.memoria.pids hat
  refine residencia_memoria hI (paginas_efecto hI.memoria hef) ⟨hI.conexas.esperan,
    hI.conexas.piden⟩ ?_ fun p h => Or.inl h
  rintro p (hp | hp)
  · exact Or.inl hp
  · refine Or.inr fun h => hp (residente_efecto hI.memoria ?_ h hef)
    rintro rfl
    cases hcpu

/-- An answer by which the planner brings a process back. -/
theorem confirma_desuspension {env : Entorno} {envios : List Envio} (hI : Paginas s.memoria)
    (hat : atenderPostHandshake env s.memoria (.desuspenderProceso p) = some (envios, m))
    (hok : confirma .desuspensionOk envios = true) : Residente m p := by
  have hresponde : envios = responder OpCode.errorPidNoEncontrado.codigo ∨
      envios = responder OpCode.errorMemoriaInsuficiente.codigo ∨
      envios = responder OpCode.desuspensionOk.codigo := by
    rw [atenderPostHandshake, manejarDesuspensionProceso] at hat
    split at hat
    · exact Or.inl (congrArg Prod.fst (Option.some.inj hat)).symm
    · split at hat
      · exact Or.inr (Or.inl (congrArg Prod.fst (Option.some.inj hat)).symm)
      · exact Or.inr (Or.inr (congrArg Prod.fst (Option.some.inj hat)).symm)
  rcases hresponde with rfl | rfl | rfl
  · exact absurd hok (by decide)
  · exact absurd hok (by decide)
  · exact residente_desuspendido hI hat

theorem residencia_atiende {env : Entorno} {j : ℕ} {hilo : Hilo} {peticion : Peticion}
    {envios : List Envio} (hI : Residencia s)
    (hx : s.conexiones[j]? = some ⟨hilo, peticion, none⟩)
    (hat : atenderPostHandshake env s.memoria peticion = some (envios, m))
    (hS : SinAdelantos (.atiende env j) s) :
    Residencia ⟨s.kernel, m, s.conexiones.set j ⟨hilo, peticion, some envios⟩⟩ := by
  have hef := efecto_de_atender hI.memoria.pids hat
  have hmem : ⟨hilo, peticion, none⟩ ∈ s.conexiones := List.mem_of_getElem? hx
  have hset : ∀ y ∈ s.conexiones.set j ⟨hilo, peticion, some envios⟩,
      y ∈ s.conexiones ∨ y = ⟨hilo, peticion, some envios⟩ := fun y hy =>
    List.mem_or_eq_of_mem_set hy
  have hpendiente : ∀ p, Pendiente ⟨s.kernel, m,
      s.conexiones.set j ⟨hilo, peticion, some envios⟩⟩ p → Pendiente s p := by
    rintro p (hp | ⟨y, hy, hpet, hresp⟩)
    · exact Or.inl hp
    · rcases hset y hy with hy | rfl
      · exact Or.inr ⟨y, hy, hpet, hresp⟩
      · cases hresp
  have hmapa : (s.conexiones.set j ⟨hilo, peticion, some envios⟩).map Conexion.hilo =
      s.conexiones.map Conexion.hilo := map_set_igual hx rfl
  refine residencia_memoria hI (paginas_efecto hI.memoria hef) ⟨?_, ?_⟩ ?_ ?_
  · rw [hmapa]
    exact hI.conexas.esperan
  · intro y hy p hhilo
    rcases hset y hy with hy | rfl
    · exact hI.conexas.piden y hy p hhilo
    · exact hI.conexas.piden _ hmem p hhilo
  · rintro p (hp | hp)
    · exact Or.inl (hpendiente p hp)
    · by_cases hpet : peticion = .suspenderProceso p
      · exact Or.inl (Or.inr ⟨_, hmem, hpet, rfl⟩)
      · exact Or.inr fun h => hp (residente_efecto hI.memoria hpet h hef)
  · rintro p (hp | ⟨y, hy, hhilo, envios', hresp, hok⟩)
    · exact Or.inl (Or.inl hp)
    · rcases hset y hy with hy | rfl
      · exact Or.inl (Or.inr ⟨y, hy, hhilo, envios', hresp, hok⟩)
      · cases hresp
        have hpide : peticion = .desuspenderProceso p := hI.conexas.piden _ hmem p hhilo
        subst hpide
        right
        rintro (hp | hp)
        · rw [SinAdelantos, sinAdelantos, hx] at hS
          exact of_decide_eq_true hS (hpendiente p hp)
        · exact hp (confirma_desuspension hI.memoria hat hok)

end Memoria

section Corridas

theorem residencia_paso {e : Evento} (hI : Residencia s) (hS : SinAdelantos e s)
    (h : SistemaConjunto.paso c e s = some s') : Residencia s' := by
  cases e with
  | kernel i a =>
    rw [SistemaConjunto.paso] at h
    split at h
    · next hespera =>
        obtain ⟨k, l, r, hk, hg, rfl⟩ := mueve_casos h
        obtain ⟨kernel, m, xs⟩ := s
        cases hk
        refine residencia_mueve hI hg ?_ (conexas_abre hI.pids hespera hI.conexas) ?_ ?_ ?_
        · rintro cpu fd pid pc motivo q rfl hq
          exact of_decide_eq_true hS q hq
        · intro x hx _
          rcases List.mem_append.mp hx with hx | hx
          · exact Or.inl hx
          · exact Or.inr (by simpa using hx)
        · intro x hx hresp
          rcases List.mem_append.mp hx with hx | hx
          · exact hx
          · refine absurd ?_ hresp
            have habre : abre k a = some x := by simpa using hx
            cases a with
            | largoEnvia pcb susp | gestorEnvia pcb | dumpEnvia pcb =>
              obtain ⟨y, -, rfl⟩ := Option.map_eq_some_iff.mp habre
              rfl
            | suspensionEnvia pid =>
              cases habre
              rfl
            | _ => cases habre
        · rintro p rfl
          cases hespera
    · cases h
  | recibe i a j =>
    obtain ⟨peticion, envios, esperado, ok, hx, hespera, hok, h⟩ := recibe_casos h
    obtain ⟨k, l, r, hk, hg, rfl⟩ := mueve_casos h
    obtain ⟨kernel, m, xs⟩ := s
    cases hk
    have hmem := List.mem_of_getElem? hx
    refine residencia_mueve hI hg ?_ (conexas_recibe hx rfl hI.conexas) ?_ ?_ ?_
    · rintro cpu fd pid pc motivo q rfl
      cases hespera
    · exact fun x hx _ => Or.inl (List.mem_of_mem_eraseIdx hx)
    · exact fun x hx _ => List.mem_of_mem_eraseIdx hx
    · rintro p rfl
      cases hespera
      exact Or.inr ⟨_, hmem, rfl, envios, rfl, hok⟩
  | atiende env j =>
    obtain ⟨hilo, peticion, envios, m, hx, hat, rfl⟩ := atiende_casos h
    exact residencia_atiende hI hx hat hS
  | accede env peticion =>
    obtain ⟨hcpu, envios, m, hat, rfl⟩ := accede_casos h
    exact residencia_accede hI hcpu hat

theorem residencia_inicial (cfg : Config) (c : ConfigKernel) (path : List Byte) (tamanio : ℤ)
    (absoluto : Option (List Byte)) : Residencia (arranque cfg c path tamanio absoluto) := by
  have hnada : ∀ p, ¬ Suelta (arranque cfg c path tamanio absoluto) p := by
    rintro p ((h | ⟨x, hx, -⟩) | h)
    · have hno : Hilo.suspensionPide p ∉ [.aceptaCpus, .aceptaIos, .reloj, .largoArranca,
          .cortoEspera, .gestorEspera] := by simp
      exact hno h
    · cases hx
    · exact h fun q hq => by cases hq
  have hkernel := asignados_inicial c path tamanio absoluto
  refine ⟨hkernel.planificador, hkernel.unaVez, ?_, paginas_inicial, ⟨?_, ?_⟩, ?_, ⟨?_, ?_⟩, ?_⟩
  · have hninguno : Pids inicial := by
      constructor
      · intro p b hb
        cases hb
      · intro p _
        rfl
    exact pids_crear hninguno
  · exact fun p susp => Nat.zero_le _
  · exact fun x hx => absurd hx List.not_mem_nil
  · exact fun p hp => absurd hp (hnada p)
  · exact fun e _ p _ => hnada p
  · exact fun p _ => hnada p
  · exact fun d _ p _ => hnada p

/-- In every run of both modules in which no request overtakes a suspension, a process in
`cola_ready` or `cola_exec` has all its pages in frames. -/
theorem listo_en_marcos (cfg : Config) (c : ConfigKernel) (path : List Byte) (tamanio : ℤ)
    (absoluto : Option (List Byte)) {es : List Evento} {s : Conjunto cfg}
    (hC : Cumple (SistemaConjunto.paso c) SinAdelantos es (arranque cfg c path tamanio absoluto))
    (hrun : correr (SistemaConjunto.paso c) es (arranque cfg c path tamanio absoluto) = some s) :
    ∀ p ∈ s.kernel.comun.colas .ready ++ s.kernel.comun.colas .running,
      Residente s.memoria p := by
  have hI : Residencia s := invariante_corrida (fun e s s' hI hS h => residencia_paso hI hS h)
    (residencia_inicial cfg c path tamanio absoluto) hC hrun
  intro p hp
  by_contra hno
  rcases List.mem_append.mp hp with hp | hp
  · exact hI.activos.colas .ready rfl p hp (Or.inr hno)
  · exact hI.activos.colas .running rfl p hp (Or.inr hno)

/-- The process waits for its device, is suspended after 50 ms, and the device ends. -/
def hastaSuspender : List Accion := hastaBloquear ++ [.pasaTiempo 50, .suspensionVence 0 0 1]

/-- The planner brings the process back. -/
def traer : List Accion :=
  [.ioTermina 2 [68] 0 0, .largoElige, .largoEnvia 0 true, .largoRecibe 0 true true,
    .largoResuelve 0 true true]

/-- Memoria handles the suspension before the device ends. -/
def suspendidaATiempo : List Accion :=
  hastaSuspender ++ .suspensionEnvia 0 :: .suspensionRecibe 0 true :: traer

def enSuOrden : List Evento := suspendidaATiempo.flatMap enTurno

/-- The thread that suspends asks Memoria when the process is back already. -/
def adelantada : List Evento :=
  (hastaSuspender ++ traer).flatMap enTurno ++
    [.kernel 0 (.suspensionEnvia 0), .atiende entornoEjemplo 0]

/-- The modules with four frames of four bytes, and a process of ten bytes. -/
def arranqueEjemplo : Conjunto configEjemplo := arranque configEjemplo configuracion [65] 10 none

def trasEventos (es : List Evento) : Option (Conjunto configEjemplo) :=
  correr (SistemaConjunto.paso configuracion) (agenda configuracion es arranqueEjemplo)
    arranqueEjemplo

theorem listo_en_marcos_ejemplo : ∃ s, trasEventos enSuOrden = some s ∧
    0 ∈ s.kernel.comun.colas .ready ∧
    (buscarProceso s.memoria.diccionarioProcesos 0).isSome ∧ Residente s.memoria 0 := by
  have hC : Cumple (SistemaConjunto.paso configuracion) SinAdelantos
      (agenda configuracion enSuOrden arranqueEjemplo) arranqueEjemplo := by decide +kernel
  have hobs : (trasEventos enSuOrden).map (fun s => (s.kernel.comun.colas .ready,
      (buscarProceso s.memoria.diccionarioProcesos 0).isSome)) = some ([0], true) := by
    decide +kernel
  obtain ⟨s, hs, hobs⟩ := Option.map_eq_some_iff.mp hobs
  obtain ⟨hready, hvivo⟩ := Prod.mk.inj hobs
  have hmem : (0 : ℤ) ∈ s.kernel.comun.colas .ready := by
    rw [hready]
    exact List.mem_cons_self
  refine ⟨s, hs, hmem, hvivo, ?_⟩
  exact listo_en_marcos configEjemplo configuracion [65] 10 none hC hs 0
    (List.mem_append_left _ hmem)

/-- The suspension arrives last: the three pages of a process in `cola_ready` are in swap. -/
theorem listo_en_swap : ∃ s, trasEventos adelantada = some s ∧ 0 ∈ s.kernel.comun.colas .ready ∧
    ¬ Residente s.memoria 0 := by
  have hobs : (trasEventos adelantada).map (fun s => (s.kernel.comun.colas .ready,
      (buscarProceso s.memoria.diccionarioProcesos 0).map fun p =>
        contarPaginasEnSwap p.tablaNivel1)) = some ([0], some 3) := by
    decide +kernel
  obtain ⟨s, hs, hobs⟩ := Option.map_eq_some_iff.mp hobs
  obtain ⟨hready, hswap⟩ := Prod.mk.inj hobs
  obtain ⟨p, hp, hcuenta⟩ := Option.map_eq_some_iff.mp hswap
  refine ⟨s, hs, ?_, fun hres => ?_⟩
  · rw [hready]
    exact List.mem_cons_self
  · have hcero := (hres p hp).2
    omega

end Corridas

end SistemaResidencia
