import Tpssoo.KernelSaludos

/-!
# One CPU for each dispatch connection

A dispatch connection is new until its thread registers it, and then it is the socket of one
CPU at most.
-/
namespace KernelConexiones

open EnterosC Protocolo KernelEstado KernelFunciones KernelHilos KernelVistas KernelSaludos
open Entrelazado

/-- The connection that a thread is about to register for a CPU. -/
def registraDe : Hilo → Option ℕ
  | .cpuRegistra fd _ => some fd
  | _ => none

/-- The dispatch connection of a CPU module. -/
def moduloDe : Hilo → Option ℕ
  | .moduloSaluda fd _ | .moduloSaludaInterrupt fd _ => some fd
  | .modulo m => some m.fdDispatch
  | _ => none

structure Conexiones (s : Sistema Kernel Hilo) : Prop where
  unica : Unico registraDe s.hilos
  abiertas : ∀ fd ∈ s.hilos.filterMap registraDe, fd < s.comun.totalConexiones
  sockets : ∀ cpu fd, (s.comun.cpus cpu).socketDispatch = some fd →
    fd < s.comun.totalConexiones ∧ fd ∉ s.hilos.filterMap registraDe
  inyectiva : ∀ cpu cpu' fd, (s.comun.cpus cpu).socketDispatch = some fd →
    (s.comun.cpus cpu').socketDispatch = some fd → cpu = cpu'

section Acciones

variable (c : ConfigKernel) (k : Kernel) {a : Accion}

/-- No thread is about to register a CPU but those of new connections. -/
theorem registra_destino (ha : ∀ nombre, a ≠ .conectaCpu nombre) :
    ((programa c).destino k a).filterMap registraDe = [] := by
  cases a with
  | conectaCpu nombre => exact absurd rfl (ha nombre)
  | recibeRespuesta cpu fd q pc motivo =>
    dsimp only [programa, transicion, trasRespuesta]
    repeat' split
    all_goals cases motivo <;> rfl
  | _ =>
    dsimp only [programa, transicion, trasDump]
    repeat' split
    all_goals rfl

theorem conexiones_efecto : k.totalConexiones ≤ ((programa c).efecto k a).totalConexiones := by
  cases hto : tocaCpus a with
  | false => exact (congrArg VistaCpus.conexiones (vistaCpus_efecto c k hto)).ge
  | true =>
    cases a with
    | conectaCpu _ | conectaIo _ | moduloSaluda _ _ => exact Nat.le_succ _
    | cortoPlanifica =>
      dsimp only [programa, transicion]
      rcases planificar_casos c k with h | h | ⟨pcb, resto, -, -, h⟩ | ⟨pcb, resto, i,
          cpu, -, -, h⟩ <;>
        rw [h] <;> exact le_rfl
    | recibeInitProc cpu fd path tamanio absoluto =>
      have hcrear : (crearPcb c (recibir k fd) path tamanio absoluto).totalConexiones =
          k.totalConexiones :=
        congrArg VistaCpus.conexiones (vistaCpus_crearPcb c (recibir k fd) path tamanio absoluto)
      dsimp only [programa, transicion]
      split <;> exact hcrear.ge
    | cpuRegistra fd nombre =>
      dsimp only [programa, transicion, registrarCpu]
      split <;> exact le_rfl
    | recibeRespuesta cpu fd q pc motivo =>
      dsimp only [programa, transicion, recibirRespuesta]
      repeat' split
      all_goals exact le_rfl
    | recibeOtro cpu fd =>
      dsimp only [programa, transicion]
      split <;> exact le_rfl
    | _ => first | exact le_rfl | cases hto

/-- A connection is registered for one CPU. -/
theorem socket_registrar {fd fd' : ℕ} {nombre : List Byte} {cpu : ℕ}
    (h : ((registrarCpu k fd nombre).cpus cpu).socketDispatch = some fd') :
    cpu = cpuDe k nombre ∧ fd' = fd ∨ (k.cpus cpu).socketDispatch = some fd' := by
  by_cases heq : cpu = cpuDe k nombre
  · subst heq
    left
    rw [registrarCpu] at h
    split at h <;>
    · simp only [Kernel.postCpuLibre, Kernel.conCpu, Function.update_self, Option.some.injEq] at h
      exact ⟨rfl, h.symm⟩
  · right
    rw [registrarCpu] at h
    split at h
    · simpa [Kernel.postCpuLibre, Kernel.conCpu, heq] using h
    · simp only [Kernel.postCpuLibre, Kernel.conCpu, Function.update_of_ne heq] at h
      by_cases hnueva : cpu = k.totalCpus
      · subst hnueva
        rw [Function.update_self] at h
        cases h
      · rwa [Function.update_of_ne hnueva] at h

end Acciones

section Pasos

variable {c : ConfigKernel} {k : Kernel} {l r : List Hilo} {a : Accion}

theorem mem_filterMap_destino {ι : Type*} {f : Hilo → Option ι} {ds : List Hilo} {h : Hilo} {x : ι}
    (hx : x ∈ (l ++ (ds ++ r)).filterMap f) :
    x ∈ (l ++ h :: r).filterMap f ∨ x ∈ ds.filterMap f := by
  rw [show l ++ h :: r = l ++ ([h] ++ r) from rfl]
  simp only [List.filterMap_append, List.mem_append] at hx ⊢
  tauto

theorem conexiones_paso (hI : Conexiones ⟨k, l ++ (programa c).origen a :: r⟩) :
    Conexiones ⟨(programa c).efecto k a, l ++ ((programa c).destino k a ++ r)⟩ := by
  by_cases ha : ∃ nombre, a = .conectaCpu nombre
  · obtain ⟨nombre, rfl⟩ := ha
    refine ⟨?_, ?_, ?_, hI.inyectiva⟩
    · refine hI.unica.entra (x := k.totalConexiones) rfl fun hmem => ?_
      exact absurd (hI.abiertas _ hmem) (lt_irrefl _)
    · intro fd hfd
      rcases mem_filterMap_destino hfd with hfd | hfd
      · exact (hI.abiertas fd hfd).trans (Nat.lt_succ_self _)
      · rw [List.mem_singleton.mp hfd]
        exact Nat.lt_succ_self _
    · intro cpu fd hs
      obtain ⟨hlt, hno⟩ := hI.sockets cpu fd hs
      refine ⟨hlt.trans (Nat.lt_succ_self _), fun hmem => ?_⟩
      rcases mem_filterMap_destino hmem with hmem | hmem
      · exact hno hmem
      · rw [List.mem_singleton.mp hmem] at hlt
        exact absurd hlt (lt_irrefl _)
  · have hdestino : ((programa c).destino k a).filterMap registraDe = [] :=
      registra_destino c k fun nombre heq => ha ⟨nombre, heq⟩
    have hantes : ∀ fd, fd ∈ (l ++ ((programa c).destino k a ++ r)).filterMap registraDe →
        fd ∈ (l ++ (programa c).origen a :: r).filterMap registraDe := by
      intro fd hfd
      rcases mem_filterMap_destino hfd with h | h
      · exact h
      · rw [hdestino] at h
        cases h
    have hcrece := conexiones_efecto c k (a := a)
    have hunica : Unico registraDe (l ++ ((programa c).destino k a ++ r)) := by
      refine hI.unica.mueve ?_
      rw [hdestino]
      exact List.nil_sublist _
    refine ⟨hunica, fun fd hfd => (hI.abiertas fd (hantes fd hfd)).trans_le hcrece, ?_, ?_⟩
    · intro cpu fd hs
      rcases (sockets_efecto c k a).dispatch cpu fd hs with hs | hreg
      · obtain ⟨hlt, hno⟩ := hI.sockets cpu fd hs
        exact ⟨hlt.trans_le hcrece, fun h => hno (hantes fd h)⟩
      · obtain ⟨nombre, rfl⟩ : ∃ nombre, a = .cpuRegistra fd nombre := by
          cases a <;> simp [registra] at hreg
          exact ⟨_, congrArg (Accion.cpuRegistra · _) hreg.symm⟩
        have hh : registraDe ((programa c).origen (.cpuRegistra fd nombre)) = some fd := rfl
        refine ⟨(hI.abiertas fd ?_).trans_le hcrece, fun h => hI.unica.solo hh ?_⟩
        · rw [List.filterMap_append, List.filterMap_cons_some hh]
          exact List.mem_append_right _ List.mem_cons_self
        · rwa [List.filterMap_append, List.filterMap_append, hdestino, List.nil_append,
            ← List.filterMap_append] at h
    · intro cpu cpu' fd hs hs'
      by_cases hreg : ∃ fd' nombre, a = .cpuRegistra fd' nombre
      · obtain ⟨fd', nombre, rfl⟩ := hreg
        have hh : registraDe ((programa c).origen (.cpuRegistra fd' nombre)) = some fd' := rfl
        have hmem : fd' ∈ (l ++ (programa c).origen (.cpuRegistra fd' nombre) :: r).filterMap
            registraDe := by
          rw [List.filterMap_append, List.filterMap_cons_some hh]
          exact List.mem_append_right _ List.mem_cons_self
        rcases socket_registrar k hs with ⟨rfl, rfl⟩ | hs₁
        · rcases socket_registrar k hs' with ⟨rfl, -⟩ | hs₂
          · rfl
          · exact absurd hmem (hI.sockets cpu' fd hs₂).2
        · rcases socket_registrar k hs' with ⟨rfl, rfl⟩ | hs₂
          · exact absurd hmem (hI.sockets cpu fd hs₁).2
          · exact hI.inyectiva cpu cpu' fd hs₁ hs₂
      · have hviejo : ∀ d, (((programa c).efecto k a).cpus d).socketDispatch = some fd →
            (k.cpus d).socketDispatch = some fd := by
          intro d hd
          rcases (sockets_efecto c k a).dispatch d fd hd with h | h
          · exact h
          · cases a <;> simp [registra] at h
            exact absurd ⟨_, _, rfl⟩ hreg
        exact hI.inyectiva cpu cpu' fd (hviejo cpu hs) (hviejo cpu' hs')

theorem conexiones_inicial (c : ConfigKernel) (path : List Byte) (tamanio : ℤ)
    (absoluto : Option (List Byte)) : Conexiones (arranque c path tamanio absoluto) := by
  have hcpus := (enviados_crearPcb c inicial path tamanio absoluto).2
  have hsin : ∀ cpu fd, ((arranque c path tamanio absoluto).comun.cpus cpu).socketDispatch ≠
      some fd := by
    intro cpu fd h
    rw [arranque, hcpus] at h
    cases h
  refine ⟨List.nodup_nil, ?_, ?_, ?_⟩
  · intro fd hfd
    cases hfd
  · intro cpu fd h
    exact absurd h (hsin cpu fd)
  · intro cpu cpu' fd h
    exact absurd h (hsin cpu fd)

end Pasos

end KernelConexiones
