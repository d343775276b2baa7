import Tpssoo.KernelLineas

/-!
# The program counter of a process in the kernel

The kernel sets the program counter of a PCB to zero when it creates it and to the one of each
response that it receives, and sends it with each dispatch.
-/
namespace KernelContadores

open EnterosC Protocolo KernelEstado KernelFunciones KernelHilos KernelVistas KernelPcbs
open KernelPresentes KernelConexiones KernelInterrupciones KernelLineas Entrelazado

/-- No block has another program counter than before. -/
def Sigue (k k' : Kernel) : Prop :=
  ∀ p b', k'.pcbs p = some b' → ∃ b, k.pcbs p = some b ∧ b'.programCounter = b.programCounter

section Escrituras

variable {k k' k'' : Kernel} {q : ℤ} {f : Pcb → Pcb}

theorem Sigue.igual (h : k'.pcbs = k.pcbs) : Sigue k k' :=
  fun _ b' hb' => ⟨b', h ▸ hb', rfl⟩

theorem Sigue.vista (h : vistaPcbs k' = vistaPcbs k) : Sigue k k' :=
  .igual (congrArg VistaPcbs.pcbs h)

theorem Sigue.trans (h : Sigue k k') (h' : Sigue k' k'') : Sigue k k'' := by
  intro p b'' hb''
  obtain ⟨b', hb', heq'⟩ := h' p b'' hb''
  obtain ⟨b, hb, heq⟩ := h p b' hb'
  exact ⟨b, hb, heq'.trans heq⟩

/-- A write to other fields of a block. -/
theorem Sigue.escribe (hf : ∀ b, (f b).programCounter = b.programCounter)
    (h : k'.pcbs = Function.update k.pcbs q ((k.pcbs q).map f)) : Sigue k k' := by
  intro p b' hb'
  rw [h] at hb'
  by_cases hp : p = q
  · subst hp
    rw [Function.update_self] at hb'
    obtain ⟨b, hb, rfl⟩ := Option.map_eq_some_iff.mp hb'
    exact ⟨b, hb, hf b⟩
  · rw [Function.update_of_ne hp] at hb'
    exact ⟨b', hb', rfl⟩

theorem programCounter_cambiarEstado (ahora : ℤ) (e : Estado) (b : Pcb) :
    (b.cambiarEstado ahora e).programCounter = b.programCounter := by
  rw [Pcb.cambiarEstado]
  split <;> rfl

theorem sigue_cambiarEstado (k : Kernel) (pcb : ℤ) (e : Estado) :
    Sigue k (k.cambiarEstado pcb e) :=
  .escribe (programCounter_cambiarEstado k.reloj e) rfl

end Escrituras

section Funciones

variable (c : ConfigKernel) (k : Kernel)

theorem sigue_admitir (pcb : ℤ) (susp : Bool) : Sigue k (admitir c k pcb susp) := by
  refine .escribe (programCounter_cambiarEstado k.reloj .ready) (q := pcb) ?_
  rw [admitir]
  exact congrArg VistaPcbs.pcbs (vistaPcbs_desalojar c _ pcb)

theorem sigue_planificar : Sigue k (planificarCortoPlazo c k) := by
  rcases planificar_casos c k with h | h | ⟨pcb, resto, -, -, h⟩ | ⟨pcb, resto, i, cpu, -, -,
      h⟩ <;> rw [h]
  · exact .igual rfl
  · exact .igual rfl
  · exact .igual rfl
  · exact .escribe (f := alDespachar k.reloj)
      (fun b => programCounter_cambiarEstado k.reloj .running b) rfl

theorem sigue_terminarDump (q : ℤ) : Sigue k (terminarDump k q) := by
  rw [terminarDump]
  split
  · exact .igual rfl
  · exact .igual rfl
  split
  · exact sigue_cambiarEstado k _ .ready
  split
  · exact sigue_cambiarEstado k _ .suspendedReady
  · exact .igual rfl

theorem sigue_resolverDump (pcb : ℤ) (ok : Bool) : Sigue k (resolverDump k pcb ok) := by
  rw [resolverDump]
  split
  · exact .igual rfl
  split
  · exact sigue_terminarDump k _
  split
  · exact .igual rfl
  · exact .igual rfl
  · next q _ =>
      obtain ⟨colas, h⟩ := quitarBloqueado_eq k q
      rw [h]
      exact sigue_cambiarEstado k q .exit

theorem sigue_despertarDeIo (q : ℤ) : Sigue k (despertarDeIo c k q) := by
  rw [despertarDeIo]
  split
  · exact .igual rfl
  · exact .igual rfl
  · next pcb _ =>
      split
      · exact (sigue_cambiarEstado k pcb .ready).trans
          (.vista (vistaPcbs_desalojar c (desbloquear k pcb) pcb))
      split
      · exact sigue_cambiarEstado k pcb .suspendedReady
      · exact .igual rfl

theorem sigue_bloquearPorIo (pcb t : ℤ) : Sigue k (bloquearPorIo k pcb t) := by
  have hcampo : Sigue k (k.conPcb pcb fun p => { p with tiempoBloqueoIo := t }) :=
    .escribe (f := fun p => { p with tiempoBloqueoIo := t }) (fun _ => rfl) rfl
  exact hcampo.trans (sigue_cambiarEstado _ pcb .blocked)

/-- An action that does not handle a packet of a CPU leaves the program counters. -/
theorem sigue_efecto {a : Accion} (hresp : ∀ cpu fd pid pc motivo,
      a ≠ .recibeRespuesta cpu fd pid pc motivo)
    (hinit : ∀ cpu fd path tamanio absoluto, a ≠ .recibeInitProc cpu fd path tamanio absoluto) :
    Sigue k ((programa c).efecto k a) := by
  cases a with
  | largoElige => exact .vista (vistaPcbs_elegirCandidato c k)
  | largoEnvia pcb susp | gestorEnvia pcb | dumpEnvia pcb =>
    refine .igual ?_
    dsimp only [programa, transicion]
    split <;> rfl
  | largoResuelve pcb susp ok =>
    cases ok with
    | false => exact .igual rfl
    | true => exact sigue_admitir c k pcb susp
  | cortoPlanifica => exact sigue_planificar c k
  | gestorToma =>
    dsimp only [programa, transicion]
    split
    · exact .igual rfl
    · exact sigue_cambiarEstado _ _ .exit
  | gestorLibera pcb ok =>
    dsimp only [programa, transicion]
    split
    · exact .igual rfl
    · intro p b' hb'
      have hpcbs : (if ok then k.postNewOMemoria else k).pcbs = k.pcbs := by
        split <;> rfl
      dsimp only at hb'
      rw [hpcbs] at hb'
      by_cases hp : p = pcb
      · rw [hp, Function.update_self] at hb'
        cases hb'
      · rw [Function.update_of_ne hp] at hb'
        exact ⟨b', hb', rfl⟩
  | suspensionVence q desde bloqueo =>
    dsimp only [programa, transicion]
    split
    · exact .igual rfl
    · exact .igual rfl
    split
    · exact sigue_cambiarEstado k _ .suspendedBlocked
    · exact .igual rfl
  | suspensionResuelve ok =>
    refine .igual ?_
    dsimp only [programa, transicion]
    split <;> rfl
  | dumpFallaConexion pcb => exact sigue_cambiarEstado k pcb .exit
  | dumpResuelve pcb ok => exact sigue_resolverDump k pcb ok
  | cpuRegistra fd nombre => exact .vista (vistaPcbs_registrarCpu k fd nombre)
  | interruptRegistra fd nombre =>
    refine .igual ?_
    dsimp only [programa, transicion]
    split <;> rfl
  | recibeInitProc cpu fd path tamanio absoluto => exact absurd rfl (hinit _ _ _ _ _)
  | recibeRespuesta cpu fd q pc motivo => exact absurd rfl (hresp _ _ _ _ _)
  | recibeOtro cpu fd =>
    refine .igual ?_
    dsimp only [programa, transicion]
    split <;> rfl
  | escuchaCambiaExit cpu pcb => exact sigue_cambiarEstado k pcb .exit
  | escuchaBloquea cpu pcb dispositivo duracion =>
    dsimp only [programa, transicion]
    split
    · exact .igual rfl
    · exact sigue_bloquearPorIo k pcb duracion
  | escuchaEncola cpu pcb grupo duracion =>
    exact .vista (vistaPcbs_encolarSolicitud k grupo pcb duracion)
  | escuchaBloqueaDump cpu pcb => exact sigue_cambiarEstado k pcb .blocked
  | escuchaCambiaReady cpu pcb => exact sigue_cambiarEstado k pcb .ready
  | escuchaDesaloja cpu pcb => exact .vista (vistaPcbs_desalojar c k pcb)
  | escuchaFinaliza cpu pcb => exact sigue_cambiarEstado k pcb .exit
  | escuchaRevisa cpu =>
    dsimp only [programa, transicion]
    split
    · exact .igual rfl
    · exact sigue_cambiarEstado k _ .exit
  | ioRegistra fd nombre => exact .vista (vistaPcbs_registrarInstancia k nombre fd)
  | ioDespacha grupo => exact .vista (vistaPcbs_despacharGrupo k grupo)
  | ioTermina fd nombre terminadas q =>
    change Sigue k (manejarFinIo c k q fd)
    rw [manejarFinIo]
    split
    · exact .igual rfl
    · exact (Sigue.igual rfl).trans (sigue_despertarDeIo c _ q)
  | ioDesconecta fd nombre terminadas => exact .vista (vistaPcbs_manejarDesconexionIo k nombre fd)
  | ioFinaliza pcb resto => exact sigue_cambiarEstado k pcb .exit
  | _ => exact .igual rfl

end Funciones

section Paquetes

variable {c : ConfigKernel} {k : Kernel} {a : Accion} {p pid pc : ℤ} {b b' : Pcb}
  {motivo : Motivo} {fd n : ℕ}

/-- The block that a PCB gets when the kernel creates it. -/
theorem pcbs_crear (c : ConfigKernel) (k : Kernel) (path : List Byte) (tamanio : ℤ)
    (absoluto : Option (List Byte)) :
    ∃ b : Pcb, (crearPcb c k path tamanio absoluto).pcbs =
        Function.update k.pcbs k.ultimoPid (some b) ∧
      b.programCounter = 0 ∧ b.tamanioProceso = tamanio ∧
      b.pathPseudocodigo = absoluto.getD path := by
  rw [crearPcb]
  split <;> exact ⟨_, rfl, rfl, rfl, rfl⟩

theorem contador_crear {path : List Byte} {tamanio : ℤ} {absoluto : Option (List Byte)}
    (h : (crearPcb c k path tamanio absoluto).pcbs p = some b') :
    k.pcbs p = some b' ∨ p = k.ultimoPid ∧ b'.programCounter = 0 := by
  obtain ⟨x, hpcbs, hx, -⟩ := pcbs_crear c k path tamanio absoluto
  rw [hpcbs] at h
  by_cases hp : p = k.ultimoPid
  · rw [hp, Function.update_self] at h
    cases h
    exact Or.inr ⟨hp, hx⟩
  · rw [Function.update_of_ne hp] at h
    exact Or.inl h

/-- A block keeps its program counter, or it is the one of a new process. -/
theorem contador_efecto (hresp : ∀ cpu fd pid pc motivo, a ≠ .recibeRespuesta cpu fd pid pc motivo)
    (h : ((programa c).efecto k a).pcbs p = some b') :
    (∃ b, k.pcbs p = some b ∧ b'.programCounter = b.programCounter) ∨
      p = k.ultimoPid ∧ b'.programCounter = 0 := by
  by_cases ha : ∃ cpu fd path tamanio absoluto, a = .recibeInitProc cpu fd path tamanio absoluto
  · obtain ⟨cpu, fd, path, tamanio, absoluto, rfl⟩ := ha
    have hpcbs : ((programa c).efecto k (.recibeInitProc cpu fd path tamanio absoluto)).pcbs =
        (crearPcb c (recibir k fd) path tamanio absoluto).pcbs := by
      dsimp only [programa, transicion]
      split <;> rfl
    rw [hpcbs] at h
    rcases contador_crear h with h | h
    · exact Or.inl ⟨b', h, rfl⟩
    · exact Or.inr h
  · refine Or.inl (sigue_efecto c k hresp ?_ p b' h)
    rintro cpu fd path tamanio absoluto rfl
    exact ha ⟨cpu, fd, path, tamanio, absoluto, rfl⟩

/-- The response to the burst of a process gives it its program counter. -/
theorem contador_respuesta {cpu : ℕ} (hcpu : (k.cpus cpu).pcbEnEjecucion = some pid)
    (hpids : ∀ q x, k.pcbs q = some x → x.pid = q)
    (h : (recibirRespuesta k c cpu fd pid pc motivo).pcbs p = some b') :
    p = pid ∧ b'.programCounter = pc ∨ p ≠ pid ∧ k.pcbs p = some b' := by
  rw [recibirRespuesta, hcpu] at h
  dsimp only at h
  cases hx : k.pcbs pid with
  | none =>
    rw [hx] at h
    have h : k.pcbs p = some b' := h
    refine Or.inr ⟨?_, h⟩
    rintro rfl
    cases hx.symm.trans h
  | some x =>
    rw [hx] at h
    dsimp only at h
    rw [if_neg (not_not.mpr (hpids pid x hx))] at h
    have h : Function.update k.pcbs pid
        ((k.pcbs pid).map (actualizarRafaga c k.reloj pc motivo)) p = some b' := h
    by_cases hp : p = pid
    · rw [hp, Function.update_self, hx] at h
      cases h
      exact Or.inl ⟨hp, rfl⟩
    · rw [Function.update_of_ne hp] at h
      exact Or.inr ⟨hp, h⟩

/-- The actions that put a response on a connection, or take one. -/
def tocaRespuestas : Accion → Bool
  | .recibeRespuesta _ _ _ _ _ | .moduloTermina _ _ _ | .moduloFallaFetch _ _ => true
  | _ => false

theorem entrantes_initProc (c : ConfigKernel) (k : Kernel) (cpu fd : ℕ) (path : List Byte)
    (tamanio : ℤ) (absoluto : Option (List Byte)) :
    ((programa c).efecto k (.recibeInitProc cpu fd path tamanio absoluto)).entrantes =
      (recibir k fd).entrantes := by
  have hvista : (crearPcb c (recibir k fd) path tamanio absoluto).entrantes =
      (recibir k fd).entrantes :=
    congrArg VistaCpus.entrantes (vistaCpus_crearPcb c (recibir k fd) path tamanio absoluto)
  dsimp only [programa, transicion]
  split <;> exact hvista

theorem respuestas_efecto (ha : tocaRespuestas a = false) (hg : (programa c).guarda k a) :
    .respuestaEjecucion p pc motivo ∈ ((programa c).efecto k a).entrantes fd ↔
      .respuestaEjecucion p pc motivo ∈ k.entrantes fd := by
  -- a packet that is not a response leaves the connection
  have hrecibir : ∀ {fd₀ x}, (k.entrantes fd₀).head? = some x →
      x ≠ .respuestaEjecucion p pc motivo →
      (.respuestaEjecucion p pc motivo ∈ (recibir k fd₀).entrantes fd ↔
        .respuestaEjecucion p pc motivo ∈ k.entrantes fd) := by
    intro fd₀ x hhead hne
    obtain ⟨resto, hresto⟩ := List.head?_eq_some_iff.mp hhead
    rw [recibir]
    dsimp only
    by_cases hfd : fd = fd₀
    · rw [hfd, Function.update_self, hresto, List.tail_cons, List.mem_cons]
      exact (or_iff_right hne.symm).symm
    · rw [Function.update_of_ne hfd]
  cases hlinea : tocaLinea a with
  | false => rw [(paquetes_efecto hlinea fd).2]
  | true =>
    cases a with
    | cortoPlanifica =>
      dsimp only [programa, transicion]
      rcases planificar_casos c k with h | h | ⟨pcb, resto, -, -, h⟩ | ⟨pcb, resto, i, d, -, -,
          h⟩ <;> rw [h] <;> exact Iff.rfl
    | recibeInitProc cpu fd₀ path tamanio absoluto =>
      have hhead := hg.2
      simp only [transicion, Bool.and_eq_true, decide_eq_true_eq] at hhead
      rw [entrantes_initProc]
      exact hrecibir hhead.2 (by simp)
    | recibeOtro cpu fd₀ =>
      have hent : ((programa c).efecto k (.recibeOtro cpu fd₀)).entrantes =
          (recibir k fd₀).entrantes := by
        dsimp only [programa, transicion]
        split <;> rfl
      rw [hent]
      exact hrecibir (of_decide_eq_true hg.2) (by simp)
    | moduloInitProc m path tamanio =>
      dsimp only [programa, transicion, entregar]
      by_cases hfd : fd = m.fdDispatch
      · rw [hfd, Function.update_self]
        simp
      · rw [Function.update_of_ne hfd]
    | recibeRespuesta _ _ _ _ _ | moduloTermina _ _ _ | moduloFallaFetch _ _ => cases ha
    | conectaCpu _ | cpuResponde _ _ | moduloSaluda _ _ | moduloSaludaInterrupt _ _
    | moduloAborta _ _ | moduloAbortaInterrupt _ _ | moduloLee _ | moduloInterrumpe _
    | moduloDesconecta _ => exact Iff.rfl
    | _ => cases hlinea

/-- A PCB on its way to a CPU was on it before, or the planner has just taken its process out of
`cola_ready`. -/
theorem paquete_efecto (hpids : ∀ q x, k.pcbs q = some x → x.pid = q)
    (h : (((programa c).efecto k a).enviados (.dispatch fd))[n]? = some (.opPcb b')) :
    (k.enviados (.dispatch fd))[n]? = some (.opPcb b') ∨ a = .cortoPlanifica ∧
      ∃ b, k.pcbs b'.pid = some b ∧ b'.programCounter = b.programCounter ∧
        b'.pid ∈ k.colas .ready := by
  obtain ⟨ms, hms⟩ := prefijo_efecto c k (a := a) (.dispatch fd)
  rw [hms] at h
  by_cases hlt : n < (k.enviados (.dispatch fd)).length
  · rw [List.getElem?_append_left hlt] at h
    exact Or.inl h
  rw [List.getElem?_append_right (not_lt.mp hlt)] at h
  have hmem : .opPcb b' ∈ ms := List.mem_of_getElem? h
  by_cases ha : a = .cortoPlanifica
  · subst ha
    refine Or.inr ⟨rfl, ?_⟩
    have hefecto : (programa c).efecto k .cortoPlanifica = planificarCortoPlazo c k := rfl
    have hnada : ((programa c).efecto k .cortoPlanifica).enviados = k.enviados → False := by
      intro heq
      rw [heq] at hms
      rw [List.self_eq_append_right.mp hms] at hmem
      cases hmem
    rcases planificar_casos c k with hk | hk | ⟨pcb, resto, -, -, hk⟩ | ⟨pcb, resto, i, cpu, hord,
        -, hk⟩
    · exact (hnada (by rw [hefecto, hk]; rfl)).elim
    · exact (hnada (by rw [hefecto, hk]; rfl)).elim
    · exact (hnada (by rw [hefecto, hk]; rfl)).elim
    · rw [hefecto, hk] at hms
      have hready : pcb ∈ k.colas .ready := by
        rw [← (ordenReady_perm (c := c)).mem_iff, hord]
        exact List.mem_cons_self
      dsimp only [despachado] at hms
      cases hx : k.pcbs pcb with
      | none =>
        rw [hx] at hms
        exact (hnada (by rw [hefecto, hk]; dsimp only [despachado]; rw [hx])).elim
      | some x =>
        cases hd : (k.cpus cpu).socketDispatch with
        | none => exact (hnada (by rw [hefecto, hk]; dsimp only [despachado]; rw [hx, hd])).elim
        | some fd' =>
          rw [hx, hd] at hms
          dsimp only at hms
          by_cases hfd : fd = fd'
          · subst hfd
            rw [Function.update_self] at hms
            rw [← List.append_cancel_left hms, List.mem_singleton] at hmem
            cases hmem
            have hpid : (x.cambiarEstado k.reloj .running).pid = pcb :=
              (mudanza_cambiarEstado _ _ x).pid.trans (hpids pcb x hx)
            rw [hpid]
            exact ⟨x, hx, programCounter_cambiarEstado _ _ x, hready⟩
          · rw [Function.update_of_ne (fun heq => hfd (by cases heq; rfl))] at hms
            rw [List.self_eq_append_right.mp hms] at hmem
            cases hmem
  · -- no other action sends a PCB
    have hrafagas := congrArg List.length (rafagas_efecto c k ha fd)
    rw [hms, List.filterMap_append, List.length_append] at hrafagas
    have hvacio : ms.filterMap pidDeOpPcb = [] := List.length_eq_zero_iff.mp (by omega)
    have hpid : b'.pid ∈ ms.filterMap pidDeOpPcb := List.mem_filterMap.mpr ⟨_, hmem, rfl⟩
    rw [hvacio] at hpid
    cases hpid

/-- How much a module has read of its dispatch connection. -/
def leidosDe : Hilo → Option (ℕ × ℕ)
  | .moduloSaluda fd _ | .moduloSaludaInterrupt fd _ => some (fd, 0)
  | .modulo m => some (m.fdDispatch, m.leidos)
  | _ => none

theorem moduloDe_leidos {d : Hilo} (h : leidosDe d = some (fd, n)) : moduloDe d = some fd := by
  cases d <;> first | (cases h; rfl) | cases h

/-- A module reads on, and a new one has a connection of its own. -/
theorem leidos_destino {d : Hilo} (hd : d ∈ (programa c).destino k a)
    (h : leidosDe d = some (fd, n)) :
    (∃ n₀ ≤ n, leidosDe ((programa c).origen a) = some (fd, n₀)) ∨
      ∃ nombre, a = .conectaCpu nombre ∧ fd = k.totalConexiones := by
  cases hto : tocaModulo a with
  | false => cases (modulo_destino hto d hd).symm.trans (moduloDe_leidos h)
  | true =>
    cases a with
    | conectaCpu nombre =>
      dsimp only [programa, transicion] at hd
      simp only [List.mem_cons, List.not_mem_nil, or_false] at hd
      rcases hd with rfl | rfl | rfl
      · cases h
      · cases h
      · cases h
        exact Or.inr ⟨nombre, rfl, rfl⟩
    | moduloSaluda fd₀ nombre =>
      rcases List.mem_cons.mp hd with rfl | hd
      · cases h
        exact Or.inl ⟨0, le_rfl, rfl⟩
      · cases List.mem_singleton.mp hd
        cases h
    | moduloSaludaInterrupt fd₀ fdI =>
      cases List.mem_singleton.mp hd
      cases h
      exact Or.inl ⟨0, Nat.zero_le _, rfl⟩
    | moduloLee m =>
      cases List.mem_singleton.mp hd
      have hlee : ∀ ms, (m.leer ms).fdDispatch = m.fdDispatch ∧ m.leidos ≤ (m.leer ms).leidos := by
        intro ms
        rw [ModuloCpu.leer]
        repeat' split
        all_goals exact ⟨rfl, by simp⟩
      obtain ⟨hfd, hle⟩ := hlee (k.enviados (.dispatch m.fdDispatch))
      cases h
      exact Or.inl ⟨m.leidos, hle, congrArg (fun x => some (x, m.leidos)) hfd.symm⟩
    | moduloInterrumpe m =>
      cases List.mem_singleton.mp hd
      have hinterrumpe : ∀ ms, (m.interrumpir ms).fdDispatch = m.fdDispatch ∧
          (m.interrumpir ms).leidos = m.leidos := by
        intro ms
        rw [ModuloCpu.interrumpir]
        split <;> exact ⟨rfl, rfl⟩
      obtain ⟨hfd, hleidos⟩ := hinterrumpe (k.enviados (.interrupt m.fdInterrupt))
      cases h
      exact Or.inl ⟨m.leidos, hleidos.ge, congrArg (fun x => some (x, m.leidos)) hfd.symm⟩
    | moduloInitProc m _ _ | moduloTermina m _ _ | moduloFallaFetch m _ =>
      cases List.mem_singleton.mp hd
      cases h
      exact Or.inl ⟨m.leidos, le_rfl, rfl⟩
    | _ => cases hto

end Paquetes

end KernelContadores
