import Tpssoo.KernelAdmision

/-!
# The gestor of finished processes

One thread takes the processes out of `cola_exit`, asks Memoria to finish each of them and
frees its block. No other thread frees one, so the block of the process that it has taken is
still allocated while it waits for Memoria.
-/
namespace KernelGestor

open EnterosC Protocolo KernelEstado KernelFunciones KernelHilos KernelVistas KernelPcbs
open KernelPresentes KernelLargoPlazo KernelAdmision Entrelazado

/-- The thread of `gestionar_procesos_finalizados`. -/
def gestiona : Hilo → Option Unit
  | .gestorEspera | .gestorToma | .gestorPide _ | .gestorAguarda _ | .gestorLibera _ _ => some ()
  | _ => none

/-- The process that it has taken out of `cola_exit`. -/
def enGestor : Hilo → Option ℤ
  | .gestorPide pcb | .gestorAguarda pcb | .gestorLibera pcb _ => some pcb
  | _ => none

/-- There is one gestor, and the block of the process that it has is allocated. -/
structure Gestor (s : Sistema Kernel Hilo) : Prop where
  unico : Unico gestiona s.hilos
  vivo : s.comun.indefinido = false → ∀ h ∈ s.hilos, ∀ p, enGestor h = some p →
    (s.comun.pcbs p).isSome

section Acciones

variable {c : ConfigKernel} {k : Kernel} {l r : List Hilo} {a : Accion} {p : ℤ}

theorem gestiona_destino (ha : gestiona ((programa c).origen a) = none) :
    ∀ d ∈ (programa c).destino k a, gestiona d = none := by
  cases a with
  | gestorDespierta | gestorToma | gestorFallaConexion _ | gestorEnvia _ | gestorRecibe _ _
  | gestorLibera _ _ => cases ha
  | recibeRespuesta cpu fd q pc motivo =>
    dsimp only [programa, transicion, trasRespuesta]
    repeat' split
    all_goals cases motivo <;> simp [segunMotivo, gestiona]
  | _ =>
    dsimp only [programa, transicion, trasDump]
    repeat' split
    all_goals simp [gestiona]

/-- The gestor goes on as one thread. -/
theorem gestiona_sigue (ha : gestiona ((programa c).origen a) = some ()) :
    ∃ d, (programa c).destino k a = [d] := by
  cases a with
  | gestorDespierta => exact ⟨_, rfl⟩
  | gestorFallaConexion _ | gestorEnvia _ | gestorRecibe _ _ | gestorLibera _ _ => exact ⟨_, rfl⟩
  | gestorToma =>
    dsimp only [programa, transicion]
    split <;> exact ⟨_, rfl⟩
  | _ => cases ha

theorem enGestor_gestiona {h : Hilo} (hp : enGestor h = some p) : gestiona h = some () := by
  cases h <;> first | rfl | cases hp

/-- Where the gestor has a process, no other thread is the gestor. -/
theorem solo_gestiona {s : Sistema Kernel Hilo} (hI : Gestor s) {h d : Hilo} (hh : h ∈ s.hilos)
    (hd : d ∈ s.hilos) (hgh : gestiona h = some ()) (hgd : gestiona d = some ()) : h = d := by
  by_contra hne
  obtain ⟨l, r, hlr⟩ := List.append_of_mem hh
  have hunico := hI.unico
  rw [hlr] at hunico hd
  have hresto : d ∈ l ++ r := by
    simp only [List.mem_append, List.mem_cons] at hd ⊢
    rcases hd with hd | hd | hd
    · exact Or.inl hd
    · exact absurd hd.symm hne
    · exact Or.inr hd
  exact hunico.solo hgh (List.mem_filterMap.mpr ⟨d, hresto, hgd⟩)

/-- An action frees no block but that of the process that the gestor has. -/
theorem vivo_tras (hvivo : (k.pcbs p).isSome) (ha : ∀ ok, a ≠ .gestorLibera p ok) :
    (((programa c).efecto k a).pcbs p).isSome := by
  have hcambio : Cambio _ (vistaPcbs k) (vistaPcbs ((programa c).efecto k a)) p :=
    cambio_efecto c k a
  rcases hcambio with ⟨-, h⟩ | ⟨-, -, h', -⟩ | ⟨-, -, h', -, -, -⟩ | ⟨⟨ok, rfl⟩, -, -⟩
  · have h : ((programa c).efecto k a).pcbs p = k.pcbs p := h
    rw [h]
    exact hvivo
  · have h' : ((programa c).efecto k a).pcbs p = some _ := h'
    rw [h']
    rfl
  · have h' : ((programa c).efecto k a).pcbs p = some _ := h'
    rw [h']
    rfl
  · exact absurd rfl (ha ok)

/-- The process that the gestor has after a step. -/
theorem enGestor_destino (hI : Gestor ⟨k, l ++ (programa c).origen a :: r⟩)
    (hk : k.indefinido = false) (hdef : ((programa c).efecto k a).indefinido = false) {d : Hilo}
    (hd : d ∈ (programa c).destino k a) (hp : enGestor d = some p) :
    (((programa c).efecto k a).pcbs p).isSome := by
  have hor := hI.vivo hk _ (List.mem_append_right _ List.mem_cons_self) p
  cases hg : gestiona ((programa c).origen a) with
  | none =>
    have hno := gestiona_destino hg d hd
    rw [enGestor_gestiona hp] at hno
    cases hno
  | some u =>
    cases a with
    | gestorToma =>
      dsimp only [programa, transicion] at hd hdef ⊢
      split at hd
      · rw [List.mem_singleton.mp hd] at hp
        cases hp
      next pcb resto hexit =>
      rw [List.mem_singleton.mp hd] at hp
      cases hp
      rw [hexit] at hdef
      -- `cambiar_estado` has followed the pointer
      have hvivo : (k.pcbs p).isNone = false := ((Bool.or_eq_false_iff).mp hdef).2
      have hmapa : (Function.update k.pcbs p
          ((k.pcbs p).map (Pcb.cambiarEstado k.reloj .exit)) p).isSome := by
        rw [Function.update_self, Option.isSome_map]
        simpa using hvivo
      exact hmapa
    | gestorFallaConexion q | gestorEnvia q | gestorRecibe q ok =>
      rw [List.mem_singleton.mp hd] at hp
      exact vivo_tras (hor hp) nofun
    | gestorDespierta | gestorLibera _ _ =>
      rw [List.mem_singleton.mp hd] at hp
      cases hp
    | _ => cases hg

theorem gestor_paso (hI : Gestor ⟨k, l ++ (programa c).origen a :: r⟩)
    (hk : k.indefinido = false) :
    Gestor ⟨(programa c).efecto k a, l ++ ((programa c).destino k a ++ r)⟩ := by
  constructor
  · cases hg : gestiona ((programa c).origen a) with
    | none =>
      refine hI.unico.mueve ?_
      rw [List.filterMap_eq_nil_iff.mpr (gestiona_destino hg)]
      exact List.nil_sublist _
    | some u =>
      obtain ⟨d, hd⟩ := gestiona_sigue (c := c) (k := k) hg
      refine hI.unico.mueve ?_
      rw [hd, List.filterMap_cons_some hg, List.filterMap_cons]
      split
      · exact List.nil_sublist _
      · exact List.Sublist.refl _
  · intro hdef h hmem p hp
    have hviejo : h ∈ l ++ r → (((programa c).efecto k a).pcbs p).isSome := by
      intro hlr
      have hantes : h ∈ l ++ (programa c).origen a :: r := by
        simp only [List.mem_append, List.mem_cons] at hlr ⊢
        tauto
      refine vivo_tras (hI.vivo hk h hantes p hp) ?_
      rintro ok rfl
      exact hI.unico.solo rfl (List.mem_filterMap.mpr ⟨h, hlr, enGestor_gestiona hp⟩)
    simp only [List.mem_append] at hmem
    rcases hmem with hmem | hmem | hmem
    · exact hviejo (List.mem_append_left _ hmem)
    · exact enGestor_destino hI hk hdef hmem hp
    · exact hviejo (List.mem_append_right _ hmem)

theorem gestor_inicial (c : ConfigKernel) (path : List Byte) (tamanio : ℤ)
    (absoluto : Option (List Byte)) : Gestor (arranque c path tamanio absoluto) := by
  constructor
  · exact List.pairwise_singleton _ _
  · simp [arranque, enGestor]

/-- Who leaves the gestor about to free a process. -/
theorem libera_destino {ok : Bool} (h : .gestorLibera p ok ∈ (programa c).destino k a) :
    a = .gestorRecibe p ok ∨ a = .gestorFallaConexion p ∧ ok = false := by
  cases hg : gestiona ((programa c).origen a) with
  | none => cases gestiona_destino hg _ h
  | some u =>
    cases a with
    | gestorRecibe q ok' =>
      cases List.mem_singleton.mp h
      exact Or.inl rfl
    | gestorFallaConexion q =>
      cases List.mem_singleton.mp h
      exact Or.inr ⟨rfl, rfl⟩
    | gestorToma =>
      dsimp only [programa, transicion] at h
      split at h <;> simp at h
    | gestorDespierta | gestorEnvia _ | gestorLibera _ _ => cases List.mem_singleton.mp h
    | _ => cases hg

/-- Who leaves the planner with an answer of Memoria about a process. -/
theorem resuelto_destino {susp ok : Bool}
    (h : .largoResuelve p susp ok ∈ (programa c).destino k a) :
    a = .largoRecibe p susp ok ∨ a = .largoFallaConexion p susp ∧ ok = false := by
  cases hpl : planifica ((programa c).origen a) with
  | none => cases planifica_destino hpl _ h
  | some u =>
    cases a with
    | largoRecibe q susp' ok' =>
      cases List.mem_singleton.mp h
      exact Or.inl rfl
    | largoFallaConexion q susp' =>
      cases List.mem_singleton.mp h
      exact Or.inr ⟨rfl, rfl⟩
    | largoElige =>
      dsimp only [programa, transicion] at h
      split at h <;> simp at h
    | largoResuelve q susp' ok' =>
      dsimp only [programa, transicion] at h
      split at h <;> simp at h
    | largoArranca | largoDespierta | largoEnvia _ _ => cases List.mem_singleton.mp h
    | _ => cases hpl

/-- Only `INIT_PROC` takes a PID. -/
theorem ultimoPid_fijo
    (ha : ∀ cpu fd path tamanio absoluto, a ≠ .recibeInitProc cpu fd path tamanio absoluto) :
    ((programa c).efecto k a).ultimoPid = k.ultimoPid := by
  have hvista : ∀ {k' : Kernel}, vistaPcbs k' = vistaPcbs k → k'.ultimoPid = k.ultimoPid :=
    fun h => congrArg VistaPcbs.ultimoPid h
  cases a with
  | recibeInitProc cpu fd path tamanio absoluto =>
    exact absurd rfl (ha cpu fd path tamanio absoluto)
  | largoElige => exact hvista (vistaPcbs_elegirCandidato c k)
  | largoEnvia pcb susp | gestorEnvia pcb | dumpEnvia pcb =>
    dsimp only [programa, transicion]
    split <;> rfl
  | largoResuelve pcb susp ok =>
    cases ok with
    | false => rfl
    | true =>
      obtain ⟨e, i, h, -⟩ := admitir_eq c k pcb susp
      exact (congrArg Kernel.ultimoPid h).trans rfl
  | cortoPlanifica =>
    dsimp only [programa, transicion]
    rcases planificar_casos c k with h | h | ⟨pcb, resto, -, -, h⟩ | ⟨pcb, resto, i, cpu, -, -,
      h⟩ <;> rw [h] <;> rfl
  | gestorToma | suspensionResuelve ok | interruptRegistra fd nombre | recibeOtro cpu fd
  | escuchaBloquea cpu pcb dispositivo duracion | escuchaRevisa cpu =>
    dsimp only [programa, transicion]
    split <;> rfl
  | gestorLibera pcb ok =>
    dsimp only [programa, transicion]
    split
    · rfl
    · cases ok <;> rfl
  | suspensionVence pid desde bloqueo =>
    dsimp only [programa, transicion]
    split
    · rfl
    · rfl
    · split <;> rfl
  | dumpResuelve pcb ok =>
    obtain ⟨colas, pcbs, r, n, m, i, h⟩ := resolverDump_eq k pcb ok
    exact (congrArg Kernel.ultimoPid h).trans rfl
  | cpuRegistra fd nombre => exact hvista (vistaPcbs_registrarCpu k fd nombre)
  | recibeRespuesta cpu fd pid pc motivo =>
    dsimp only [programa, transicion, recibirRespuesta]
    repeat' split
    all_goals rfl
  | escuchaEncola cpu pcb grupo duracion =>
    exact hvista (vistaPcbs_encolarSolicitud k grupo pcb duracion)
  | escuchaDesaloja cpu pcb => exact hvista (vistaPcbs_desalojar c k pcb)
  | ioRegistra fd nombre => exact hvista (vistaPcbs_registrarInstancia k nombre fd)
  | ioDespacha grupo => exact hvista (vistaPcbs_despacharGrupo k grupo)
  | ioTermina fd nombre terminadas pid =>
    dsimp only [programa, transicion, manejarFinIo]
    split
    · rfl
    · obtain ⟨colas, pcbs, r, n, e, i, h, -⟩ := despertarDeIo_eq c k pid
      exact (congrArg Kernel.ultimoPid h).trans rfl
  | ioDesconecta fd nombre terminadas => exact hvista (vistaPcbs_manejarDesconexionIo k nombre fd)
  | _ => rfl

/-- A block is allocated for a process that enters `cola_new`. -/
theorem nuevo_de_nace (hp : k.pcbs p = none) (hp' : (((programa c).efecto k a).pcbs p).isSome) :
    p = k.ultimoPid ∧ p ∈ ((programa c).efecto k a).colas .new ∧
      ∃ cpu fd path tamanio absoluto, a = .recibeInitProc cpu fd path tamanio absoluto := by
  have hcambio : Cambio _ (vistaPcbs k) (vistaPcbs ((programa c).efecto k a)) p :=
    cambio_efecto c k a
  rcases hcambio with ⟨-, h⟩ | ⟨-, h, -, -⟩ | ⟨hn, hpid, -, -, -, -⟩ | ⟨-, -, h'⟩
  · have h : ((programa c).efecto k a).pcbs p = k.pcbs p := h
    rw [h, hp] at hp'
    cases hp'
  · cases hp.symm.trans h
  · by_cases hinit : ∃ cpu fd path tamanio absoluto,
        a = .recibeInitProc cpu fd path tamanio absoluto
    · refine ⟨hpid, ?_, hinit⟩
      obtain ⟨cpu, fd, path, tamanio, absoluto, rfl⟩ := hinit
      obtain ⟨e, he⟩ := initProc_igual (c := c) (k := k) cpu fd path tamanio absoluto
      have hnew : (crearPcb c (recibir k fd) path tamanio absoluto).colas .new =
        k.colas .new ++ [k.ultimoPid] := (crear_nuevos path tamanio absoluto).1
      rw [he, hnew]
      exact List.mem_append_right _ (List.mem_singleton.mpr hpid)
    · have hfijo := ultimoPid_fijo (c := c) (k := k) fun cpu fd path tamanio absoluto h =>
        hinit ⟨cpu, fd, path, tamanio, absoluto, h⟩
      have hn : ((programa c).efecto k a).ultimoPid = k.ultimoPid + 1 := hn
      omega
  · have h' : ((programa c).efecto k a).pcbs p = none := h'
    rw [h'] at hp'
    cases hp'

/-- A process waits in `cola_new` until the planner admits it. -/
theorem nuevo_queda (hpl : Planificador ⟨k, l ++ (programa c).origen a :: r⟩)
    (hk : k.indefinido = false) (ha : a ≠ .largoResuelve p false true) (hp : p ∈ k.colas .new) :
    p ∈ ((programa c).efecto k a).colas .new := by
  cases hplan : planifica ((programa c).origen a) with
  | none => exact (nuevos_ajenos hplan).subset hp
  | some u =>
    cases a with
    | largoArranca | largoDespierta | largoFallaConexion _ _ | largoRecibe _ _ _ => exact hp
    | largoEnvia q susp =>
      dsimp only [programa, transicion]
      split <;> exact hp
    | largoElige => exact (elegir_colas .new).mem_iff.mpr hp
    | largoResuelve q susp ok =>
      cases ok with
      | false => exact hp
      | true =>
        have hcola : ((programa c).efecto k (.largoResuelve q susp true)).colas .new =
            if susp then k.colas .new else (k.colas .new).tail :=
          (admitir_colas (c := c) (k := k) q susp).1
        rw [hcola]
        cases susp with
        | true => exact hp
        | false =>
          have hhead : (k.colas .new).head? = some q :=
            hpl.candidato hk _ (List.mem_append_right _ List.mem_cons_self) q false rfl
          obtain ⟨resto, hresto⟩ := List.head?_eq_some_iff.mp hhead
          rw [hresto] at hp ⊢
          rcases List.mem_cons.mp hp with rfl | hp
          · exact absurd rfl ha
          · exact hp
    | _ => cases hplan

/-- The process that the planner admits is no longer in `cola_new`. -/
theorem admitido_sale (hpl : Planificador ⟨k, l ++ (programa c).origen a :: r⟩)
    (hN : Nuevos ⟨k, l ++ (programa c).origen a :: r⟩) (hk : k.indefinido = false)
    (ha : a = .largoResuelve p false true) : p ∈ k.colas .new ∧
      p ∉ ((programa c).efecto k a).colas .new := by
  subst ha
  have hhead : (k.colas .new).head? = some p :=
    hpl.candidato hk _ (List.mem_append_right _ List.mem_cons_self) p false rfl
  have hcola : ((programa c).efecto k (.largoResuelve p false true)).colas .new =
      (k.colas .new).tail := (admitir_colas (c := c) (k := k) p false).1
  obtain ⟨resto, hresto⟩ := List.head?_eq_some_iff.mp hhead
  have hnodup := hN.nodup
  rw [hcola]
  rw [hresto] at hnodup ⊢
  exact ⟨List.mem_cons_self, (List.nodup_cons.mp hnodup).1⟩

/-- Only a new process enters `cola_new`. -/
theorem nuevo_estaba (hP : p < k.ultimoPid) (hp : p ∈ ((programa c).efecto k a).colas .new) :
    p ∈ k.colas .new := by
  rcases cambiaNuevos_efecto (c := c) (k := k) (a := a) with ⟨h, -⟩ | ⟨h, -, -⟩
  · exact h.subset hp
  · rw [h] at hp
    rcases List.mem_append.mp hp with hp | hp
    · exact hp
    · exact absurd (List.mem_singleton.mp hp) hP.ne

end Acciones

end KernelGestor
