import Tpssoo.CpuSecuencia
import Tpssoo.KernelContadores
import Tpssoo.SistemaPromesas

/-!
# Every process runs its program in order

The program counter of a process goes from the turns of a burst to the response, to the PCB in
the kernel, and with the next dispatch to another CPU. Wherever it is, it is the one that the
last turn of the process left.
-/
namespace SistemaSecuencial

open EnterosC Protocolo KernelFunciones KernelVistas KernelHilos KernelLargoPlazo KernelGestor
  KernelConexiones KernelInterrupciones KernelCpus KernelEjecucion KernelLineas KernelContadores
  MemoriaEstado MemoriaPaginacion MemoriaPeticiones MemoriaInvariante CpuEstado CpuGiros CpuPrivada
  CpuSecuencia SistemaCompleto SistemaPromesas Entrelazado Tartamudeo
open KernelEstado hiding Cpu
open LineaCpu hiding Conexion
open CpuCiclo hiding recibirRespuesta paso
open SistemaAcuerdo (Viva)
open SistemaCpus (Nucleo renacer)

section Invariante

/-- How a module answers to the kernel at the end of a burst. -/
def contesta (pid : ℤ) (g : Giro) : Option Motivo :=
  match g.salida with
  | .sigue _ _ _ => none
  | .termina _ r _ =>
    if g.pendiente = true ∧ r.motivo ≠ OpCode.procesoInterrupcion.codigo then some .otro
    else (motivoDe pid r).map fun motivo => if g.pendiente then .interrupcion else motivo

/-- Turns `gs` of `pid` have ended in a response. -/
def Responde (gs : List Giro) (pid pc : ℤ) (motivo : Motivo) : Prop :=
  ∃ g, gs.getLast? = some g ∧ proximo g = pc ∧ contesta pid g = some motivo

/-- The program counter of a process, wherever it is, is the one that its turns leave. -/
structure Continua (k : Sistema Kernel Hilo) (ns : ℕ → Nucleo) (vs : ℤ → List Giro) : Prop where
  cadena : ∀ p, Encadenados 0 (vs p)
  nuevos : ∀ p, vs p ≠ [] → p < k.comun.ultimoPid ∧ p ∉ k.comun.colas .new
  bloques : ∀ p b, k.comun.pcbs p = some b → b.programCounter = contador 0 (vs p) ∨
    (∃ fd, (ns fd).rafaga.map Prod.fst = some p) ∨
      ∃ fd pc motivo, .respuestaEjecucion p pc motivo ∈ k.comun.entrantes fd
  paquetes : ∀ h ∈ k.hilos, ∀ fd n, leidosDe h = some (fd, n) → ∀ j b, n ≤ j →
    (k.comun.enviados (.dispatch fd))[j]? = some (.opPcb b) →
      b.programCounter = contador 0 (vs b.pid)
  nucleos : ∀ fd p pc, (ns fd).rafaga = some (p, pc) → pc = contador 0 (vs p)
  respuestas : ∀ fd p pc motivo, .respuestaEjecucion p pc motivo ∈ k.comun.entrantes fd →
    Responde (vs p) p pc motivo

end Invariante

section Rafagas

variable {k : Sistema Kernel Hilo} {ns : ℕ → Nucleo} {p pc : ℤ} {motivo : Motivo} {fd n j : ℕ}
  {h : Hilo} {m : ModuloCpu} {b : Pcb}

/-- The process of a response on its way is in execution in the CPU of the connection. -/
theorem ejecuta_de_respuesta (hL : Lineas k)
    (hresp : .respuestaEjecucion p pc motivo ∈ k.comun.entrantes fd) :
    ∃ cpu, (k.comun.cpus cpu).socketDispatch = some fd ∧ Ejecuta k cpu p := by
  have hresto : ∀ o, Ocupa k fd o → o = some p := by
    intro o ho
    have hreg := hL.regulares fd o ho
    have hres : Resto o (k.comun.entrantes fd) := by
      by_cases hmod : (conexionDe k fd).modulos = []
      · exact hreg.resto hmod
      · obtain ⟨d, hd⟩ := List.exists_mem_of_ne_nil _ hmod
        have hfase := (hreg.fase d hd).resto
        rwa [entrantes_linea] at hfase
    generalize k.comun.entrantes fd = ys at hres hresp
    cases hres with
    | nada => cases hresp
    | pedido _ path tamanio => cases List.mem_singleton.mp hresp
    | respuesta pid pc' motivo' =>
      cases List.mem_singleton.mp hresp
      rfl
  by_cases hcpu : ∃ cpu, (k.comun.cpus cpu).socketDispatch = some fd
  · obtain ⟨cpu, hcpu⟩ := hcpu
    exact ⟨cpu, hcpu, enEjecucion_eq_some.mp (hresto _ (.de cpu hcpu))⟩
  · cases hresto none (.nadie (not_exists.mp hcpu))

/-- A PCB that a module has not read is one of its line. -/
theorem pid_por_leer (hh : leidosDe h = some (fd, n)) (hj : n ≤ j)
    (hb : (k.comun.enviados (.dispatch fd))[j]? = some (.opPcb b)) :
    b.pid ∈ ((conexionDe k fd).linea h).porLeer.filterMap pidDeOpPcb := by
  have hmem : .opPcb b ∈ (k.comun.enviados (.dispatch fd)).drop n := by
    refine List.mem_iff_getElem?.mpr ⟨j - n, ?_⟩
    rw [List.getElem?_drop, Nat.add_sub_cancel' hj]
    exact hb
  refine List.mem_filterMap.mpr ⟨.opPcb b, ?_, rfl⟩
  cases h with
  | modulo m =>
    cases hh
    exact hmem
  | moduloSaluda _ _ | moduloSaludaInterrupt _ _ =>
    cases hh
    exact List.mem_filter.mpr ⟨hmem, rfl⟩
  | _ => cases hh

theorem fase_de_modulo (hL : Lineas k) (hm : .modulo m ∈ k.hilos) :
    ∃ o, Fase o ((conexionDe k m.fdDispatch).linea (.modulo m)) := by
  obtain ⟨o, ho⟩ := ocupa_alguno k m.fdDispatch
  exact ⟨o, (hL.regulares _ o ho).fase _ (List.mem_filter.mpr ⟨hm, decide_eq_true rfl⟩)⟩

/-- A process in a turn has no other dispatch on its way. -/
theorem sin_paquetes (hR : Regido k) (hm : .modulo m ∈ k.hilos)
    (hp : m.rafaga.map Prod.snd = some b.pid) (hespera : m.esperaInit = false) (hh : h ∈ k.hilos)
    (hleidos : leidosDe h = some (fd, n)) (hj : n ≤ j) :
    (k.comun.enviados (.dispatch fd))[j]? ≠ some (.opPcb b) := by
  intro hb
  have hpid := pid_por_leer hleidos hj hb
  obtain ⟨cpu, hcpu, hejecuta⟩ := ejecuta_de_procesos hR.lineas hh (moduloDe_leidos hleidos)
    (List.mem_append_left _ hpid)
  obtain ⟨cpu', hcpu', hejecuta'⟩ := ejecuta_de_modulo hR hm hp
  cases hR.asignados.ejecucion.unica cpu cpu' b.pid hejecuta hejecuta'
  cases hcpu.symm.trans hcpu'
  cases modulo_unico hR.lineas hm hh rfl (moduloDe_leidos hleidos)
  -- a module in a turn has read all that the kernel sent it
  obtain ⟨o, hfase⟩ := fase_de_modulo hR.lineas hm
  rw [(hfase.de_rafaga hp hespera).2] at hpid
  cases hpid

/-- A process in a burst has no response on its way. -/
theorem sin_respuestas (hR : Regido k) (hm : .modulo m ∈ k.hilos)
    (hp : m.rafaga.map Prod.snd = some p) :
    .respuestaEjecucion p pc motivo ∉ k.comun.entrantes fd := by
  intro hresp
  obtain ⟨cpu, hcpu, hejecuta⟩ := ejecuta_de_respuesta hR.lineas hresp
  obtain ⟨cpu', hcpu', hejecuta'⟩ := ejecuta_de_modulo hR hm hp
  cases hR.asignados.ejecucion.unica cpu cpu' p hejecuta hejecuta'
  cases hcpu.symm.trans hcpu'
  obtain ⟨o, hfase⟩ := fase_de_modulo hR.lineas hm
  have hent : ((conexionDe k m.fdDispatch).linea (.modulo m)).entrantes =
      k.comun.entrantes m.fdDispatch := entrantes_linea _ _
  rw [← hent] at hresp
  exact hfase.sin_respuesta hp hresp

variable {vs : ℤ → List Giro}

/-- A process that is not in execution has its program counter in its PCB. -/
theorem Continua.bloque (h : Continua k ns vs) (hR : Regido k) (hS : Sincronia k.hilos ns)
    (hb : k.comun.pcbs p = some b) (hp : p ∉ k.comun.colas .running) :
    b.programCounter = contador 0 (vs p) := by
  rcases h.bloques p b hb with hpc | ⟨fd, hfd⟩ | ⟨fd, pc, motivo, hresp⟩
  · exact hpc
  · obtain ⟨m, hm, -, hraf⟩ := hS.modulo hfd
    exact absurd (exec_de_modulo hR hm hraf) hp
  · obtain ⟨cpu, -, hejecuta⟩ := ejecuta_de_respuesta hR.lineas hresp
    exact absurd (hR.asignados.ejecucion.enCola cpu p hejecuta) hp

end Rafagas

section Kernel

variable {c : ConfigKernel} {k : Kernel} {l r : List Hilo} {a : Accion} {ns : ℕ → Nucleo}
  {vs : ℤ → List Giro}

theorem nuevos_kernel (hI : Continua ⟨k, l ++ (programa c).origen a :: r⟩ ns vs) (p : ℤ)
    (hp : vs p ≠ []) : p < ((programa c).efecto k a).ultimoPid ∧
      p ∉ ((programa c).efecto k a).colas .new := by
  obtain ⟨hlt, hno⟩ := hI.nuevos p hp
  exact ⟨hlt.trans_le ultimoPid_efecto, fun hp => hno (nuevo_estaba hlt hp)⟩

/-- A PCB that the kernel sends has the program counter of its process, which was in
`cola_ready`. -/
theorem paquetes_kernel (hR : Regido ⟨k, l ++ (programa c).origen a :: r⟩)
    (hS : Sincronia (l ++ (programa c).origen a :: r) ns)
    (hI : Continua ⟨k, l ++ (programa c).origen a :: r⟩ ns vs) {h : Hilo}
    (hh : h ∈ l ++ ((programa c).destino k a ++ r)) {fd n j : ℕ} {b : Pcb}
    (hleidos : leidosDe h = some (fd, n)) (hj : n ≤ j)
    (hb : (((programa c).efecto k a).enviados (.dispatch fd))[j]? = some (.opPcb b)) :
    b.programCounter = contador 0 (vs b.pid) := by
  rcases paquete_efecto hR.lineas.pids hb with hb | ⟨-, x, hx, hpc, hready⟩
  · have hviejo : ∃ h₀ ∈ l ++ (programa c).origen a :: r, ∃ n₀ ≤ n,
        leidosDe h₀ = some (fd, n₀) := by
      rw [List.mem_append, List.mem_append] at hh
      rcases hh with hh | hh | hh
      · exact ⟨h, List.mem_append_left _ hh, n, le_rfl, hleidos⟩
      · rcases leidos_destino hh hleidos with ⟨n₀, hn₀, horigen⟩ | ⟨nombre, -, rfl⟩
        · exact ⟨_, List.mem_append_right _ List.mem_cons_self, n₀, hn₀, horigen⟩
        · -- the connection is new
          have hvacia : k.enviados (.dispatch k.totalConexiones) = [] :=
            congrArg LineaCpu.Conexion.enviados (hR.lineas.nuevas k.totalConexiones le_rfl)
          rw [hvacia] at hb
          cases hb
      · exact ⟨h, List.mem_append_right _ (List.mem_cons_of_mem _ hh), n, le_rfl, hleidos⟩
    obtain ⟨h₀, hh₀, n₀, hn₀, hleidos₀⟩ := hviejo
    exact hI.paquetes h₀ hh₀ fd n₀ hleidos₀ j b (hn₀.trans hj) hb
  · rw [hpc]
    refine hI.bloque hR hS hx fun hexec => ?_
    cases (solo_en_cola hR hexec).2.1 .ready hready

/-- An action of the kernel, or of a module that does not end its burst. -/
theorem continua_kernel (hR : Regido ⟨k, l ++ (programa c).origen a :: r⟩)
    (hS : Sincronia (l ++ (programa c).origen a :: r) ns)
    (hI : Continua ⟨k, l ++ (programa c).origen a :: r⟩ ns vs) (hg : (programa c).guarda k a)
    (ha : tocaRespuestas a = false) :
    Continua ⟨(programa c).efecto k a, l ++ ((programa c).destino k a ++ r)⟩ ns vs where
  cadena := hI.cadena
  nuevos := nuevos_kernel hI
  bloques := by
    intro p b' hb'
    have hresp : ∀ cpu fd pid pc motivo, a ≠ .recibeRespuesta cpu fd pid pc motivo := by
      rintro cpu fd pid pc motivo rfl
      cases ha
    rcases contador_efecto hresp hb' with ⟨b, hb, hpc⟩ | ⟨rfl, hpc⟩
    · rw [hpc]
      refine (hI.bloques p b hb).imp_right (Or.imp_right ?_)
      rintro ⟨fd, pc, motivo, hmem⟩
      exact ⟨fd, pc, motivo, (respuestas_efecto ha hg).mpr hmem⟩
    · have hnada : vs k.ultimoPid = [] :=
        not_not.mp fun hne => lt_irrefl _ (hI.nuevos _ hne).1
      rw [hpc, hnada]
      exact Or.inl rfl
  paquetes := fun h hh fd n hleidos j b hj hb => paquetes_kernel hR hS hI hh hleidos hj hb
  nucleos := hI.nucleos
  respuestas := fun fd p pc motivo hresp =>
    hI.respuestas fd p pc motivo ((respuestas_efecto ha hg).mp hresp)

/-- The kernel takes a response to the burst that it has in execution. -/
theorem respuesta_casos {cpu fd : ℕ} {pid pc : ℤ} {motivo : Motivo}
    (hR : Regido ⟨k, l ++ .escuchaRecibe cpu (some fd) :: r⟩)
    (hg : (programa c).guarda k (.recibeRespuesta cpu fd pid pc motivo)) :
    Ejecuta ⟨k, l ++ .escuchaRecibe cpu (some fd) :: r⟩ cpu pid ∧
      k.entrantes fd = [.respuestaEjecucion pid pc motivo] ∧
      (programa c).efecto k (.recibeRespuesta cpu fd pid pc motivo) =
        ((recibir k fd).conPcb pid (actualizarRafaga c k.reloj pc motivo)).quitar .running pid ∧
      (programa c).destino k (.recibeRespuesta cpu fd pid pc motivo) =
        [segunMotivo cpu pid motivo] := by
  obtain ⟨resto, hent⟩ := List.head?_eq_some_iff.mp (of_decide_eq_true hg.2)
  have hcpu := hR.lineas.escuchan cpu (some fd) (List.mem_append_right _ List.mem_cons_self)
  obtain ⟨rfl, hpid⟩ := (hR.lineas.regulares fd _ (.de cpu hcpu)).respuesta hent
  have hejecuta := enEjecucion_eq_some.mp hpid
  have hexec := hR.asignados.ejecucion.enCola cpu pid hejecuta
  obtain ⟨b, hb⟩ := Option.isSome_iff_exists.mp (solo_en_cola hR hexec).1
  have hpropio : ¬ b.pid ≠ pid := not_not.mpr (hR.lineas.pids pid b hb)
  refine ⟨hejecuta, hent, ?_, ?_⟩
  · dsimp only [programa, transicion, recibirRespuesta]
    rw [hejecuta.1]
    dsimp only
    rw [hb]
    exact if_neg hpropio
  · dsimp only [programa, transicion, trasRespuesta]
    rw [hejecuta.1]
    dsimp only
    rw [hb]
    exact if_neg hpropio

/-- The response is no longer on its connection, and the others stay. -/
theorem respuesta_quita {k' : Kernel} {fd : ℕ} {pid pc : ℤ} {motivo : Motivo} {f : Pcb → Pcb}
    (hent : k.entrantes fd = [.respuestaEjecucion pid pc motivo])
    (hk' : k' = ((recibir k fd).conPcb pid f).quitar .running pid) (fd' : ℕ) (x : PaqueteCpu) :
    x ∈ k'.entrantes fd' ↔
      x ∈ k.entrantes fd' ∧ (fd' = fd → x ≠ .respuestaEjecucion pid pc motivo) := by
  have hvacia : k'.entrantes = Function.update k.entrantes fd [] := by
    rw [hk']
    change Function.update k.entrantes fd (k.entrantes fd).tail = _
    rw [hent]
    rfl
  rw [hvacia]
  by_cases hfd : fd' = fd
  · subst hfd
    rw [Function.update_self, hent]
    simp
  · rw [Function.update_of_ne hfd]
    simp [hfd]

/-- The kernel takes a response. -/
theorem continua_respuesta {cpu fd : ℕ} {pid pc : ℤ} {motivo : Motivo}
    (hR : Regido ⟨k, l ++ .escuchaRecibe cpu (some fd) :: r⟩)
    (hS : Sincronia (l ++ .escuchaRecibe cpu (some fd) :: r) ns)
    (hI : Continua ⟨k, l ++ .escuchaRecibe cpu (some fd) :: r⟩ ns vs)
    (hg : (programa c).guarda k (.recibeRespuesta cpu fd pid pc motivo)) :
    Continua ⟨(programa c).efecto k (.recibeRespuesta cpu fd pid pc motivo),
      l ++ ((programa c).destino k (.recibeRespuesta cpu fd pid pc motivo) ++ r)⟩ ns vs := by
  obtain ⟨hejecuta, hent, hefecto, -⟩ := respuesta_casos hR hg
  have hmem : .respuestaEjecucion pid pc motivo ∈ k.entrantes fd := by
    rw [hent]
    exact List.mem_singleton_self _
  have hquedan := respuesta_quita hent hefecto
  refine ⟨hI.cadena, nuevos_kernel (c := c) (a := .recibeRespuesta cpu fd pid pc motivo) hI,
    ?_, ?_, hI.nucleos, ?_⟩
  · intro p b' hb'
    rcases contador_respuesta hejecuta.1 hR.lineas.pids hb' with ⟨rfl, hpc⟩ | ⟨hne, hb⟩
    · obtain ⟨g, hg, hprox, -⟩ := hI.respuestas fd p pc motivo hmem
      rw [hpc, contador, hg, ← hprox]
      exact Or.inl rfl
    · refine (hI.bloques p b' hb).imp_right (Or.imp_right ?_)
      rintro ⟨fd', pc', motivo', hmem'⟩
      refine ⟨fd', pc', motivo', (hquedan fd' _).mpr ⟨hmem', fun _ heq => ?_⟩⟩
      cases heq
      exact hne rfl
  · exact fun h hh fd n hleidos j b hj hb => paquetes_kernel hR hS hI hh hleidos hj hb
  · exact fun fd' p pc' motivo' hmem' =>
      hI.respuestas fd' p pc' motivo' ((hquedan fd' _).mp hmem').1

end Kernel

section Modulos

variable {k k' : Sistema Kernel Hilo} {ns ns' : ℕ → Nucleo} {vs : ℤ → List Giro} {m : ModuloCpu}
  {g : Giro} {pid : ℤ}

/-- A module starts a burst with the program counter of its packet. -/
theorem continua_recibe (hI : Continua k ns vs) {fd : ℕ} {pc : ℤ} (hlibre : (ns fd).rafaga = none)
    (hpropia : (ns' fd).rafaga = some (pid, pc)) (hotros : ∀ fd', fd' ≠ fd → ns' fd' = ns fd')
    (hpc : pc = contador 0 (vs pid)) : Continua k ns' vs where
  cadena := hI.cadena
  nuevos := hI.nuevos
  bloques := by
    intro p b hb
    refine (hI.bloques p b hb).imp_right (Or.imp_left ?_)
    rintro ⟨fd', hfd'⟩
    refine ⟨fd', ?_⟩
    rw [hotros fd']
    · exact hfd'
    · rintro rfl
      rw [hlibre] at hfd'
      cases hfd'
  paquetes := hI.paquetes
  nucleos := by
    intro fd' p pc' hraf
    by_cases hfd : fd' = fd
    · subst hfd
      cases hpropia.symm.trans hraf
      exact hpc
    · rw [hotros fd' hfd] at hraf
      exact hI.nucleos fd' p pc' hraf
  respuestas := hI.respuestas

/-- A turn of a module, with its response when it ends the burst. -/
theorem continua_giro (hR : Regido k) (hI : Continua k ns vs) (hm : .modulo m ∈ k.hilos)
    (hp : m.rafaga.map Prod.snd = some pid) (hespera : m.esperaInit = false)
    (hraf : (ns m.fdDispatch).rafaga = some (pid, g.programCounter))
    (hunico : ∀ fd, (ns fd).rafaga.map Prod.fst = some pid → fd = m.fdDispatch)
    (hpropia : (ns' m.fdDispatch).rafaga = g.sigue.map fun pc => (pid, pc))
    (hotros : ∀ fd, fd ≠ m.fdDispatch → ns' fd = ns fd) {entrantes : ℕ → List PaqueteCpu}
    (hcomun : k'.comun = { k.comun with entrantes := entrantes })
    (hleen : ∀ h ∈ k'.hilos, ∀ fd n, leidosDe h = some (fd, n) →
      ∃ h₀ ∈ k.hilos, ∃ n₀ ≤ n, leidosDe h₀ = some (fd, n₀))
    (hresp : ∀ fd x, x ∈ entrantes fd ↔ x ∈ k.comun.entrantes fd ∨
      fd = m.fdDispatch ∧ ∃ motivo ∈ contesta pid g,
        x = .respuestaEjecucion pid (proximo g) motivo)
    (hcontesta : g.sigue = none → (contesta pid g).isSome) :
    Continua k' ns' (Function.update vs pid (vs pid ++ [g])) := by
  have hpc : g.programCounter = contador 0 (vs pid) := hI.nucleos _ _ _ hraf
  have hpropio : contador 0 (Function.update vs pid (vs pid ++ [g]) pid) = proximo g := by
    rw [Function.update_self, contador_concat]
  have hajeno : ∀ {p}, p ≠ pid → Function.update vs pid (vs pid ++ [g]) p = vs p :=
    fun hne => Function.update_of_ne hne _ _
  constructor
  · intro p
    by_cases hpid : p = pid
    · rw [hpid, Function.update_self, encadenados_concat]
      exact ⟨hI.cadena pid, hpc⟩
    · rw [hajeno hpid]
      exact hI.cadena p
  · intro p hne
    rw [hcomun]
    by_cases hpid : p = pid
    · subst hpid
      obtain ⟨hbloque, hsola, -⟩ := solo_en_cola hR (exec_de_modulo hR hm hp)
      constructor
      · refine not_le.mp fun hle => ?_
        have hnada := hR.orden.pids.nuevos p hle
        rw [hnada] at hbloque
        cases hbloque
      · intro hnew
        cases hsola .new hnew
    · rw [hajeno hpid] at hne
      exact hI.nuevos p hne
  · intro p b hb
    rw [hcomun] at hb ⊢
    by_cases hpid : p = pid
    · subst hpid
      refine Or.inr ?_
      cases hsig : g.sigue with
      | some pc =>
        refine Or.inl ⟨m.fdDispatch, ?_⟩
        rw [hpropia, hsig]
        rfl
      | none =>
        obtain ⟨motivo, hmotivo⟩ := Option.isSome_iff_exists.mp (hcontesta hsig)
        exact Or.inr ⟨m.fdDispatch, proximo g, motivo,
          (hresp _ _).mpr (Or.inr ⟨rfl, motivo, hmotivo, rfl⟩)⟩
    · rw [hajeno hpid]
      refine (hI.bloques p b hb).imp_right (Or.imp ?_ ?_)
      · rintro ⟨fd, hfd⟩
        refine ⟨fd, ?_⟩
        rw [hotros fd]
        · exact hfd
        · rintro rfl
          rw [hraf] at hfd
          exact hpid (Option.some.inj hfd).symm
      · rintro ⟨fd, pc, motivo, hmem⟩
        exact ⟨fd, pc, motivo, (hresp _ _).mpr (Or.inl hmem)⟩
  · intro h hh fd n hleidos j b hj hb
    rw [hcomun] at hb
    obtain ⟨h₀, hh₀, n₀, hn₀, hleidos₀⟩ := hleen h hh fd n hleidos
    have hpid : b.pid ≠ pid := by
      rintro rfl
      exact sin_paquetes hR hm hp hespera hh₀ hleidos₀ (hn₀.trans hj) hb
    rw [hajeno hpid]
    exact hI.paquetes h₀ hh₀ fd n₀ hleidos₀ j b (hn₀.trans hj) hb
  · intro fd p pc hfd
    by_cases hpid : p = pid
    · subst hpid
      have hfd' : fd = m.fdDispatch := by
        by_contra hne
        rw [hotros fd hne] at hfd
        exact hne (hunico fd (congrArg (Option.map Prod.fst) hfd))
      rw [hfd', hpropia] at hfd
      obtain ⟨pc', hsig, heq⟩ := Option.map_eq_some_iff.mp hfd
      cases heq
      rw [hpropio, proximo_de_sigue hsig]
    · rw [hajeno hpid]
      refine hI.nucleos fd p pc ?_
      rw [← hotros fd]
      · exact hfd
      · rintro rfl
        rw [hpropia] at hfd
        obtain ⟨pc', -, heq⟩ := Option.map_eq_some_iff.mp hfd
        cases heq
        exact hpid rfl
  · intro fd p pc motivo hmem
    rw [hcomun] at hmem
    rcases (hresp fd _).mp hmem with hmem | ⟨-, motivo', hmotivo, heq⟩
    · have hpid : p ≠ pid := by
        rintro rfl
        exact sin_respuestas hR hm hp hmem
      rw [hajeno hpid]
      exact hI.respuestas fd p pc motivo hmem
    · cases heq
      rw [Function.update_self]
      exact ⟨g, List.getLast?_concat, rfl, hmotivo⟩

end Modulos

variable {cfg : Config} {c : ConfigKernel} {cpus : ℕ → Cpu} {s s' : Completo cfg}

section Pasos

variable {es : List SistemaConjunto.Evento} {e : Evento} {i : ℕ} {m : ModuloCpu}

def girosDe (s : Completo cfg) (p : ℤ) : List Giro := (s.vidas p).giros

/-- An action of the kernel, or of a module that does not end its burst. -/
theorem continua_mueve {k : Kernel} {l r : List Hilo} {a : Accion} (hE : Entero es s)
    (hI : Continua s.conjunto.kernel s.nucleos (girosDe s))
    (hk : s.conjunto.kernel = ⟨k, l ++ (programa c).origen a :: r⟩) (hg : (programa c).guarda k a)
    (ha : ∀ m pc motivo, a ≠ .moduloTermina m pc motivo)
    (ha' : ∀ m pc, a ≠ .moduloFallaFetch m pc) :
    Continua ⟨(programa c).efecto k a, l ++ ((programa c).destino k a ++ r)⟩ s.nucleos
      (girosDe s) := by
  have hR := hE.gobierno.regido
  have hS := hE.sincronia
  rw [hk] at hR hS hI
  cases hto : tocaRespuestas a with
  | false => exact continua_kernel hR hS hI hg hto
  | true =>
    cases a with
    | recibeRespuesta cpu fd pid pc motivo => exact continua_respuesta hR hS hI hg
    | moduloTermina m pc motivo => exact absurd rfl (ha m pc motivo)
    | moduloFallaFetch m pc => exact absurd rfl (ha' m pc)
    | _ => cases hto

/-- A module reads. -/
theorem continua_lee (hE : Entero es s)
    (hI : Continua s.conjunto.kernel s.nucleos (girosDe s))
    (h : SistemaCompleto.paso c cpus (.lee i m) s = some s') :
    Continua s'.conjunto.kernel s'.nucleos (girosDe s') := by
  obtain ⟨x, hx, h⟩ := lee_casos h
  obtain ⟨k, l, r, hk, hg, hs, -⟩ := kernel_casos hx
  have hcont := continua_mueve hE hI hk hg (by simp) (by simp)
  rw [← hs] at hcont
  rcases recibe_casos h with ⟨p, hleido, -, hy, hs', -⟩ | ⟨-, rfl⟩
  · obtain ⟨hlibre, z, -, hy'⟩ := SistemaCpus.recibe_casos hy
    obtain ⟨hpropia, hotros⟩ := nucleos_conCpu hy'
    have hvidas : s'.vidas = s.vidas := congrArg SistemaCpus.Equipo.vidas hy'
    have hgiros : girosDe s' = girosDe s := by
      funext q
      rw [girosDe, girosDe, hvidas]
    have hm : .modulo m ∈ s.conjunto.kernel.hilos := by
      rw [hk]
      exact List.mem_append_right _ List.mem_cons_self
    rw [hs', hgiros]
    refine continua_recibe hcont hlibre hpropia hotros ?_
    exact hI.paquetes _ hm m.fdDispatch m.leidos rfl m.leidos p le_rfl hleido
  · exact hcont

/-- A module asks for a process. -/
theorem continua_pide (hE : Entero es s)
    (hI : Continua s.conjunto.kernel s.nucleos (girosDe s))
    (h : SistemaCompleto.paso c cpus (.pide i m) s = some s') :
    Continua s'.conjunto.kernel s'.nucleos (girosDe s') := by
  obtain ⟨_, _, _, _, _, _, -, -, -, -, hx, hs'⟩ := pide_casos h
  obtain ⟨k, l, r, hk, hg, hs, -⟩ := kernel_casos hx
  have hcont := continua_mueve hE hI hk hg (by simp) (by simp)
  rw [← hs] at hcont
  rw [hs']
  exact hcont

/-- What a module sends at the end of its burst. -/
theorem responde_contesta {r : Respuesta} {a : Accion} {g : Giro} {u : Unit}
    {nuevas : List Syscall} (h : respuestaDe m r = some a) (hsal : g.salida = .termina u r nuevas)
    (hpend : g.pendiente = interrumpido m) : ∃ motivo, contesta m.pid g = some motivo ∧
      ∀ k, (programa c).efecto k a =
        entregar k m.fdDispatch (.respuestaEjecucion m.pid (proximo g) motivo) := by
  have hprox : proximo g = r.programCounter := by
    rw [proximo, hsal]
  rw [contesta, hsal, hpend, hprox]
  rw [respuestaDe] at h
  dsimp only
  split at h
  · next hcond =>
      cases h
      exact ⟨.otro, if_pos hcond, fun _ => rfl⟩
  · next hcond =>
      obtain ⟨motivo, hmotivo, rfl⟩ := Option.map_eq_some_iff.mp h
      refine ⟨motivoFinal m motivo, ?_, fun _ => rfl⟩
      rw [if_neg hcond, hmotivo, Option.map_some, motivoFinal, interrumpido]
      by_cases hm : m.interrupcionPendiente = [] <;> simp [hm]

/-- A turn is written down in the log of its process. -/
theorem giros_con {y : SistemaCpus.Equipo cfg ℕ} {g : Giro} {p : ℤ}
    (h : s'.equipo = { y with vidas := Function.update s.vidas p ((s.vidas p).con g) }) :
    girosDe s' = Function.update (girosDe s) p (girosDe s p ++ [g]) := by
  have hvidas : s'.vidas = Function.update s.vidas p ((s.vidas p).con g) :=
    congrArg SistemaCpus.Equipo.vidas h
  funext q
  rw [girosDe, hvidas]
  by_cases hq : q = p
  · rw [hq, Function.update_self, Function.update_self]
    rfl
  · rw [Function.update_of_ne hq, Function.update_of_ne hq]
    rfl

/-- A turn, with the answer of the module if it is the last one of its burst. -/
theorem continua_gira (hE : Entero es s)
    (hI : Continua s.conjunto.kernel s.nucleos (girosDe s))
    (h : SistemaCompleto.paso c cpus (.gira i m) s = some s') :
    Continua s'.conjunto.kernel s'.nucleos (girosDe s') := by
  obtain ⟨hhilo, hespera, -, y, g, hy, hg, -, hequipo, -, hcierra⟩ := gira_casos h
  have hm : .modulo m ∈ s.conjunto.kernel.hilos := List.mem_of_getElem? hhilo
  obtain ⟨pc, x, hraf, hpid, hgiro, hy'⟩ := giro_de_gira hE hm hy hg
  rw [hy'] at hequipo
  have hentrada := entrada_giro hgiro
  have hpc : g.programCounter = pc := congrArg Prod.fst hentrada
  have hpend : g.pendiente = interrumpido m := congrArg Prod.snd hentrada
  obtain ⟨hpropia, hotros⟩ := nucleos_conCpu hequipo
  have hunico : ∀ fd, (s.nucleos fd).rafaga.map Prod.fst = some m.pid → fd = m.fdDispatch := by
    intro fd hfd
    exact hE.fiel.unico fd m.fdDispatch m.pid hfd (congrArg (Option.map Prod.fst) hraf)
  rw [giros_con hequipo]
  rcases hcierra with ⟨u, pc', nuevas, hsal, hs'⟩ | ⟨u, r, nuevas, a, hsal, ha, hx⟩
  · rw [hs']
    have hcomun : s.conjunto.kernel.comun = { s.conjunto.kernel.comun with
        entrantes := s.conjunto.kernel.comun.entrantes } := rfl
    refine continua_giro hE.gobierno.regido hI hm hpid hespera (hpc ▸ hraf) hunico hpropia hotros
      hcomun ?_ ?_ ?_
    · exact fun h hh fd n hleidos => ⟨h, hh, n, le_rfl, hleidos⟩
    · intro fd x
      simp [contesta, hsal]
    · intro hno
      rw [Giro.sigue, hsal] at hno
      cases hno
  · obtain ⟨k, l, r', hk, -, hs, -⟩ := kernel_casos hx
    obtain ⟨motivo, hmotivo, hefecto⟩ := responde_contesta (c := c) ha hsal hpend
    obtain ⟨-, hraf', -⟩ := responde_destino (c := c) ha k
    dsimp only at hk
    rw [hs]
    have hcomun : (programa c).efecto k a = { s.conjunto.kernel.comun with
        entrantes := ((programa c).efecto k a).entrantes } := by
      rw [hk, hefecto]
      rfl
    refine continua_giro hE.gobierno.regido hI hm hpid hespera (hpc ▸ hraf) hunico hpropia hotros
      hcomun ?_ ?_ ?_
    · intro h hh fd n hleidos
      rw [hk]
      simp only [List.mem_append] at hh
      rcases hh with hh | hh | hh
      · exact ⟨h, List.mem_append_left _ hh, n, le_rfl, hleidos⟩
      · rcases leidos_destino hh hleidos with ⟨n₀, hn₀, horigen⟩ | ⟨nombre, rfl, -⟩
        · exact ⟨_, List.mem_append_right _ List.mem_cons_self, n₀, hn₀, horigen⟩
        · cases hraf'
      · exact ⟨h, List.mem_append_right _ (List.mem_cons_of_mem _ hh), n, le_rfl, hleidos⟩
    · intro fd x
      rw [hk, hefecto, entregar, hmotivo]
      dsimp only
      by_cases hfd : fd = m.fdDispatch
      · rw [hfd, Function.update_self, List.mem_append, List.mem_singleton]
        simp
      · rw [Function.update_of_ne hfd]
        simp [hfd]
    · intro _
      rw [hmotivo]
      rfl

/-- A request to Memoria starts the log of a process that has taken no turn. -/
theorem giros_atiende {env : Entorno} {j : ℕ} (hE : Entero es s)
    (hI : Continua s.conjunto.kernel s.nucleos (girosDe s))
    (h : SistemaCompleto.paso c cpus (.atiende env j) s = some s')
    (hdef : s.conjunto.kernel.comun.indefinido = false) : girosDe s' = girosDe s := by
  obtain ⟨x, y, hx, hy, -, hequipo, -⟩ := atiende_casos h
  obtain ⟨-, envios, m, -, rfl⟩ := SistemaCpus.atiende_casos hy
  have hmem := List.mem_of_getElem? hx
  have hvidas : s'.vidas = renacer s.vidas envios m x.peticion :=
    congrArg SistemaCpus.Equipo.vidas hequipo
  funext p
  rw [girosDe, girosDe, hvidas]
  cases hpet : x.peticion with
  | initProc pid tam largo path =>
    rw [renacer]
    split
    · by_cases hp : p = pid
      · subst hp
        -- the candidate of the planner is still in `cola_new`
        have hA := hE.gobierno.acuerdo
        have hespera := hA.conexas.espera hmem
        have hhilo := (SistemaAcuerdo.crea_iff (hA.conexas.corresponden x hmem)).mp
          ⟨tam, largo, path, hpet⟩
        rw [hhilo] at hespera
        have hcand := hA.planificador.candidato hdef _ hespera p false rfl
        have hnueva : p ∈ s.conjunto.kernel.comun.colas .new := List.mem_of_mem_head? hcand
        have hnada : girosDe s p = [] := not_not.mp fun hne => (hI.nuevos p hne).2 hnueva
        rw [Function.update_self]
        exact hnada.symm
      · rw [Function.update_of_ne hp]
    · rfl
  | _ => rfl

theorem continua_atiende {env : Entorno} {j : ℕ} (hE : Entero es s)
    (hI : Continua s.conjunto.kernel s.nucleos (girosDe s))
    (h : SistemaCompleto.paso c cpus (.atiende env j) s = some s')
    (hdef : s'.conjunto.kernel.comun.indefinido = false) :
    Continua s'.conjunto.kernel s'.nucleos (girosDe s') := by
  rw [giros_atiende hE hI h (definido_antes h hdef)]
  obtain ⟨x, y, -, -, hz, -, hnucleos, -⟩ := atiende_casos h
  obtain ⟨hilo, pet, envios, m, -, -, hs'⟩ := SistemaConjunto.atiende_casos hz
  rw [hnucleos, hs']
  exact hI

theorem continua_paso (hE : Entero es s)
    (hI : Continua s.conjunto.kernel s.nucleos (girosDe s))
    (h : SistemaCompleto.paso c cpus e s = some s')
    (hdef : s'.conjunto.kernel.comun.indefinido = false) :
    Continua s'.conjunto.kernel s'.nucleos (girosDe s') := by
  cases e with
  | kernel i a =>
    rw [SistemaCompleto.paso] at h
    split at h
    · cases h
    · next hraf =>
        obtain ⟨hx, hs'⟩ := actua_casos h
        obtain ⟨k, l, r, hk, hg, hs, -⟩ := kernel_casos hx
        have hcont := continua_mueve hE hI hk hg
          (by rintro m pc motivo rfl; exact hraf rfl) (by rintro m pc rfl; exact hraf rfl)
        rw [← hs] at hcont
        rw [hs']
        exact hcont
  | recibe i a j =>
    obtain ⟨x, hx, rfl⟩ := Option.map_eq_some_iff.mp h
    obtain ⟨_, _, _, _, -, hespera, -, hmueve⟩ := SistemaConjunto.recibe_casos hx
    obtain ⟨k, l, r, hk, hg, hx'⟩ := SistemaConjunto.mueve_casos hmueve
    have hcont := continua_mueve hE hI hk hg
      (by rintro m pc motivo rfl; cases hespera) (by rintro m pc rfl; cases hespera)
    rw [hx']
    exact hcont
  | atiende env j => exact continua_atiende hE hI h hdef
  | lee i m => exact continua_lee hE hI h
  | pide i m => exact continua_pide hE hI h
  | gira i m => exact continua_gira hE hI h

theorem entrantes_inicial (c : ConfigKernel) (path : List Byte) (tamanio : ℤ)
    (absoluto : Option (List Byte)) (entradasTlb entradasCache : ℕ → ℤ) (fd : ℕ) :
    (SistemaCompleto.arranque cfg c path tamanio absoluto entradasTlb
      entradasCache).conjunto.kernel.comun.entrantes fd = [] :=
  congrFun (congrArg VistaCpus.entrantes (vistaCpus_crearPcb c inicial path tamanio absoluto)) fd

theorem continua_inicial (c : ConfigKernel) (path : List Byte) (tamanio : ℤ)
    (absoluto : Option (List Byte)) (entradasTlb entradasCache : ℕ → ℤ) :
    Continua (SistemaCompleto.arranque cfg c path tamanio absoluto entradasTlb
        entradasCache).conjunto.kernel
      (SistemaCompleto.arranque cfg c path tamanio absoluto entradasTlb entradasCache).nucleos
      (girosDe (SistemaCompleto.arranque cfg c path tamanio absoluto entradasTlb
        entradasCache)) where
  cadena _ := trivial
  nuevos _ hne := absurd rfl hne
  bloques := by
    intro p b hb
    have hb : (crearPcb c inicial path tamanio absoluto).pcbs p = some b := hb
    rcases contador_crear hb with hb | ⟨-, hpc⟩
    · cases hb
    · exact Or.inl hpc
  paquetes := by
    intro h hh fd n hleidos
    simp only [SistemaCompleto.arranque, SistemaConjunto.arranque, KernelHilos.arranque,
      List.mem_cons, List.not_mem_nil, or_false] at hh
    rcases hh with rfl | rfl | rfl | rfl | rfl | rfl <;> cases hleidos
  nucleos := by
    intro fd p pc hraf
    cases hraf
  respuestas := by
    intro fd p pc motivo hmem
    rw [entrantes_inicial] at hmem
    cases hmem

end Pasos

section Corridas

variable {es : List Evento} {path : List Byte} {tamanio : ℤ} {absoluto : Option (List Byte)}
  {entradasTlb entradasCache : ℕ → ℤ} {pid : ℤ}

theorem continua_corrida (halg : ∀ i, (cpus i).algoritmoCache ≠ .otro)
    (hC : Cumple (SistemaCompleto.paso c cpus) (Previsto c) es
      (SistemaCompleto.arranque cfg c path tamanio absoluto entradasTlb entradasCache))
    (hfallas : ∀ e ∈ es, SinFallas cfg e)
    (hrun : correr (SistemaCompleto.paso c cpus) es
      (SistemaCompleto.arranque cfg c path tamanio absoluto entradasTlb entradasCache) = some s)
    (hdef : s.conjunto.kernel.comun.indefinido = false) :
    (∃ es', Entero es' s) ∧ Continua s.conjunto.kernel s.nucleos (girosDe s) := by
  refine invariante_mientras
    (I := fun s => (∃ es', Entero es' s) ∧ Continua s.conjunto.kernel s.nucleos (girosDe s))
    (D := fun s => s.conjunto.kernel.comun.indefinido = false) (fun _ _ _ => definido_antes) ?_
    ⟨⟨[], entero_inicial c path tamanio absoluto entradasTlb entradasCache⟩,
      continua_inicial c path tamanio absoluto entradasTlb entradasCache⟩
    (cumple_con hC hfallas) hrun hdef
  rintro e s s' ⟨⟨es', hE⟩, hI⟩ hP h hdef
  exact ⟨entero_paso halg hE hP.1 hP.2 h hdef, continua_paso hE hI h hdef⟩

/-- In every run of the kernel, Memoria and the CPUs, the turns that a process has taken in all
its bursts are those of its program run from its start, alone, over a memory of its own. -/
theorem corre_su_programa (halg : ∀ i, (cpus i).algoritmoCache ≠ .otro)
    (hC : Cumple (SistemaCompleto.paso c cpus) (Previsto c) es
      (SistemaCompleto.arranque cfg c path tamanio absoluto entradasTlb entradasCache))
    (hfallas : ∀ e ∈ es, SinFallas cfg e)
    (hrun : correr (SistemaCompleto.paso c cpus) es
      (SistemaCompleto.arranque cfg c path tamanio absoluto entradasTlb entradasCache) = some s)
    (hdef : s.conjunto.kernel.comun.indefinido = false) {p : Proceso cfg}
    (hp : buscarProceso s.conjunto.memoria.diccionarioProcesos pid = some p) :
    (s.vidas pid).memoria.length = paginasDadas cfg p.tamProceso * cfg.tamPagina ∧
      ∃ xs, ejecutar (privada cfg p.instrucciones) (s.vidas pid).memoria 0
        ((s.vidas pid).giros.map Giro.pendiente) =
          some ((s.vidas pid).giros, xs, contador 0 (s.vidas pid).giros) := by
  obtain ⟨⟨es', hE⟩, hI⟩ := continua_corrida halg hC hfallas hrun hdef
  obtain ⟨xs, hvivida, -⟩ := hE.fiel.memorias pid p hp
  exact ⟨hvivida.largo, xs, ejecutar_de_girar hvivida.giros (hI.cadena pid)⟩

/-- The two bursts are the program run from its start. -/
theorem corre_su_programa_ejemplo : ∃ (s : Completo configEjemplo) (p : Proceso configEjemplo),
    correr (SistemaCompleto.paso configuracion cpusEjemplo) corridaEjemplo inicioEjemplo = some s ∧
      buscarProceso s.conjunto.memoria.diccionarioProcesos 0 = some p ∧
      (s.vidas 0).giros.map Giro.entrada =
        [(0, false), (1, false), (2, false), (3, false), (4, false)] ∧
      (s.vidas 0).memoria.length = paginasDadas configEjemplo p.tamProceso *
        configEjemplo.tamPagina ∧
      ∃ xs, ejecutar (privada configEjemplo p.instrucciones) (s.vidas 0).memoria 0
        ((s.vidas 0).giros.map Giro.pendiente) =
          some ((s.vidas 0).giros, xs, contador 0 (s.vidas 0).giros) := by
  have hrun : ((correr (SistemaCompleto.paso configuracion cpusEjemplo) corridaEjemplo
      inicioEjemplo).any fun s =>
        (buscarProceso s.conjunto.memoria.diccionarioProcesos 0).any fun _ =>
          decide (s.conjunto.kernel.comun.indefinido = false ∧ (s.vidas 0).giros.map Giro.entrada =
            [(0, false), (1, false), (2, false), (3, false), (4, false)])) = true := by
    decide +kernel
  obtain ⟨s, hs, hobs⟩ := (Option.any_eq_true _ _).mp hrun
  obtain ⟨p, hp, hobs⟩ := (Option.any_eq_true _ _).mp hobs
  obtain ⟨hdef, hentradas⟩ := of_decide_eq_true hobs
  refine ⟨s, p, hs, hp, hentradas, ?_⟩
  exact corre_su_programa algoritmos_ejemplo previsto_ejemplo sin_fallas_corrida hs hdef hp

/-- In every run, the program counter that the last turn of a process left is the one in its PCB
when it is not in execution, and the one of the CPU that it is in a burst in. -/
theorem contador_al_dia (halg : ∀ i, (cpus i).algoritmoCache ≠ .otro)
    (hC : Cumple (SistemaCompleto.paso c cpus) (Previsto c) es
      (SistemaCompleto.arranque cfg c path tamanio absoluto entradasTlb entradasCache))
    (hfallas : ∀ e ∈ es, SinFallas cfg e)
    (hrun : correr (SistemaCompleto.paso c cpus) es
      (SistemaCompleto.arranque cfg c path tamanio absoluto entradasTlb entradasCache) = some s)
    (hdef : s.conjunto.kernel.comun.indefinido = false) :
    (∀ b, s.conjunto.kernel.comun.pcbs pid = some b →
      pid ∉ s.conjunto.kernel.comun.colas .running →
        b.programCounter = contador 0 (s.vidas pid).giros) ∧
      ∀ fd pc, (s.nucleos fd).rafaga = some (pid, pc) →
        pc = contador 0 (s.vidas pid).giros := by
  obtain ⟨⟨es', hE⟩, hI⟩ := continua_corrida halg hC hfallas hrun hdef
  exact ⟨fun b hb hno => hI.bloque hE.gobierno.regido hE.sincronia hb hno,
    fun fd pc hraf => hI.nucleos fd pid pc hraf⟩

/-- The run up to the request of the dump. -/
theorem hastaElDump_ejemplo : ∃ s : Completo configEjemplo,
    correr (SistemaCompleto.paso configuracion cpusEjemplo) hastaElDump inicioEjemplo = some s ∧
      s.conjunto.kernel.comun.indefinido = false ∧
      s.conjunto.conexiones[0]? = some ⟨.dumpAguarda 0, .dumpMemory 0, none⟩ ∧
      0 ∈ s.conjunto.kernel.comun.colas .blocked ∧ 0 ∉ s.conjunto.kernel.comun.colas .running ∧
      (s.vidas 0).giros.map Giro.entrada = [(0, false), (1, false)] := by
  have hrun : ((correr (SistemaCompleto.paso configuracion cpusEjemplo) hastaElDump
      inicioEjemplo).any fun s => decide (s.conjunto.kernel.comun.indefinido = false ∧
        s.conjunto.conexiones[0]? = some ⟨.dumpAguarda 0, .dumpMemory 0, none⟩ ∧
        0 ∈ s.conjunto.kernel.comun.colas .blocked ∧
        0 ∉ s.conjunto.kernel.comun.colas .running ∧
        (s.vidas 0).giros.map Giro.entrada = [(0, false), (1, false)])) = true := by
    decide +kernel
  obtain ⟨s, hs, hobs⟩ := (Option.any_eq_true _ _).mp hrun
  exact ⟨s, hs, of_decide_eq_true hobs⟩

/-- A process that waits for its dump. -/
theorem contador_al_dia_ejemplo : ∃ s : Completo configEjemplo,
    correr (SistemaCompleto.paso configuracion cpusEjemplo) hastaElDump inicioEjemplo = some s ∧
      0 ∉ s.conjunto.kernel.comun.colas .running ∧
      (∀ b, s.conjunto.kernel.comun.pcbs 0 = some b →
        0 ∉ s.conjunto.kernel.comun.colas .running →
          b.programCounter = contador 0 (s.vidas 0).giros) ∧
        ∀ fd pc, (s.nucleos fd).rafaga = some (0, pc) → pc = contador 0 (s.vidas 0).giros := by
  obtain ⟨s, hs, hdef, -, -, hno, -⟩ := hastaElDump_ejemplo
  refine ⟨s, hs, hno, ?_⟩
  exact contador_al_dia algoritmos_ejemplo previsto_hastaElDump
    (sin_fallas_agenda sin_fallas_hastaElDump) hs hdef

/-- In every run, a response that the kernel has not taken yet is what the last turn of its
process ended in. -/
theorem respuesta_del_giro (halg : ∀ i, (cpus i).algoritmoCache ≠ .otro)
    (hC : Cumple (SistemaCompleto.paso c cpus) (Previsto c) es
      (SistemaCompleto.arranque cfg c path tamanio absoluto entradasTlb entradasCache))
    (hfallas : ∀ e ∈ es, SinFallas cfg e)
    (hrun : correr (SistemaCompleto.paso c cpus) es
      (SistemaCompleto.arranque cfg c path tamanio absoluto entradasTlb entradasCache) = some s)
    (hdef : s.conjunto.kernel.comun.indefinido = false) {fd : ℕ} {pc : ℤ} {motivo : Motivo}
    (hresp : .respuestaEjecucion pid pc motivo ∈ s.conjunto.kernel.comun.entrantes fd) :
    Responde (s.vidas pid).giros pid pc motivo :=
  (continua_corrida halg hC hfallas hrun hdef).2.respuestas fd pid pc motivo hresp

/-- The `EXIT` of the program. -/
theorem respuesta_del_giro_ejemplo : ∃ s : Completo configEjemplo,
    correr (SistemaCompleto.paso configuracion cpusEjemplo) corridaEjemplo inicioEjemplo = some s ∧
      .respuestaEjecucion 0 4 .exit ∈ s.conjunto.kernel.comun.entrantes 0 ∧
      Responde (s.vidas 0).giros 0 4 .exit := by
  have hrun : ((correr (SistemaCompleto.paso configuracion cpusEjemplo) corridaEjemplo
      inicioEjemplo).any fun s => decide (s.conjunto.kernel.comun.indefinido = false ∧
        .respuestaEjecucion 0 4 .exit ∈ s.conjunto.kernel.comun.entrantes 0)) = true := by
    decide +kernel
  obtain ⟨s, hs, hobs⟩ := (Option.any_eq_true _ _).mp hrun
  obtain ⟨hdef, hresp⟩ := of_decide_eq_true hobs
  refine ⟨s, hs, hresp, ?_⟩
  exact respuesta_del_giro algoritmos_ejemplo previsto_ejemplo sin_fallas_corrida hs hdef hresp

/-- In every run, the dump that Memoria makes of a process is the memory that its program, run
alone up to its `DUMP_MEMORY`, leaves. -/
theorem volcado_del_programa (halg : ∀ i, (cpus i).algoritmoCache ≠ .otro)
    (hC : Cumple (SistemaCompleto.paso c cpus) (Previsto c) es
      (SistemaCompleto.arranque cfg c path tamanio absoluto entradasTlb entradasCache))
    (hfallas : ∀ e ∈ es, SinFallas cfg e)
    (hrun : correr (SistemaCompleto.paso c cpus) es
      (SistemaCompleto.arranque cfg c path tamanio absoluto entradasTlb entradasCache) = some s)
    (hdef : s.conjunto.kernel.comun.indefinido = false) {j : ℕ} {hilo : Hilo}
    (hx : s.conjunto.conexiones[j]? = some ⟨hilo, .dumpMemory pid, none⟩) {env : Entorno}
    (henv : env.SinFallas cfg) (habre : env.dumpAbre = true) :
    ∃ (p : Proceso cfg) (xs : List Byte),
      buscarProceso s.conjunto.memoria.diccionarioProcesos pid = some p ∧
      ejecutar (privada cfg p.instrucciones) (s.vidas pid).memoria 0
        ((s.vidas pid).giros.map Giro.pendiente) =
          some ((s.vidas pid).giros, xs, contador 0 (s.vidas pid).giros) ∧
      (SistemaCompleto.paso c cpus (.atiende env j) s).map
          (fun s' => s'.conjunto.memoria.volcados) =
        some ((pid, xs) :: s.conjunto.memoria.volcados) := by
  obtain ⟨⟨es', hE⟩, hI⟩ := continua_corrida halg hC hfallas hrun hdef
  have hR := hE.gobierno.regido
  have hA := hE.gobierno.acuerdo
  have hmem := List.mem_of_getElem? hx
  -- the process waits for its dump, so it is blocked
  have hpide : pid ∈ s.conjunto.kernel.hilos.flatMap KernelPedidos.pide := by
    refine List.mem_flatMap.mpr ⟨hilo, hA.conexas.espera hmem, ?_⟩
    have hcor := hA.conexas.corresponden _ hmem
    cases hilo with
    | dumpAguarda q =>
      cases hcor
      exact List.mem_singleton_self _
    | largoAguarda q susp =>
      cases susp with
      | true => cases hcor
      | false =>
        obtain ⟨_, _, _, hno⟩ := hcor
        cases hno
    | gestorAguarda q | suspensionAguarda q => cases hcor
    | _ => exact hcor.elim
  obtain ⟨cola, hcola, hbloqueado⟩ : ∃ cola, (cola = .blocked ∨ cola = .suspendedBlocked) ∧
      pid ∈ s.conjunto.kernel.comun.colas cola := by
    have hcuenta := hR.orden.pedidos hdef pid
    have hpos := List.count_pos_iff.mpr hpide
    rw [KernelPedidos.bloqueos] at hcuenta
    by_cases hblocked : pid ∈ s.conjunto.kernel.comun.colas .blocked
    · exact ⟨.blocked, Or.inl rfl, hblocked⟩
    · refine ⟨.suspendedBlocked, Or.inr rfl, List.count_pos_iff.mp ?_⟩
      rw [List.count_eq_zero.mpr hblocked] at hcuenta
      omega
  have hviva : Viva s.conjunto.memoria pid := by
    refine vivo_en_cola hA hR hdef ?_ hbloqueado
    rcases hcola with rfl | rfl <;> decide
  obtain ⟨p, hp⟩ := Option.ne_none_iff_exists'.mp hviva
  have hquieto : ∀ fd, ¬ SistemaCpus.Corre s.equipo fd pid := by
    intro fd hcorre
    obtain ⟨m, hm, -, hraf⟩ := hE.sincronia.modulo hcorre
    have hcola' := (solo_en_cola hR hbloqueado).2.1 .running (exec_de_modulo hR hm hraf)
    rcases hcola with rfl | rfl <;> cases hcola'
  obtain ⟨xs, hvivida, hvolcado⟩ :=
    SistemaAislamiento.volcado_fiel hE.fiel hp hquieto henv habre
  refine ⟨p, xs, hp, ejecutar_de_girar hvivida.giros (hI.cadena pid), ?_⟩
  have hmemoria : s.equipo.memoria = s.conjunto.memoria := rfl
  rw [hmemoria] at hvolcado
  simp only [SistemaCompleto.paso, SistemaCpus.paso, SistemaConjunto.paso, hx, hmemoria,
    SistemaConjunto.deCpu, atenderPostHandshake, hvolcado, Bool.false_eq_true, if_false,
    Option.map_some, Option.bind_eq_bind, Option.bind_some, Option.pure_def]

/-- The dump of a process that has written one byte. -/
theorem volcado_del_programa_ejemplo : ∃ s : Completo configEjemplo,
    correr (SistemaCompleto.paso configuracion cpusEjemplo) hastaElDump inicioEjemplo = some s ∧
      (s.vidas 0).giros.map Giro.entrada = [(0, false), (1, false)] ∧
      ∃ (p : Proceso configEjemplo) (xs : List Byte),
        buscarProceso s.conjunto.memoria.diccionarioProcesos 0 = some p ∧
        ejecutar (privada configEjemplo p.instrucciones) (s.vidas 0).memoria 0
          ((s.vidas 0).giros.map Giro.pendiente) =
            some ((s.vidas 0).giros, xs, contador 0 (s.vidas 0).giros) ∧
        (SistemaCompleto.paso configuracion cpusEjemplo (.atiende entornoPrograma 0) s).map
            (fun s' => s'.conjunto.memoria.volcados) =
          some ((0, xs) :: s.conjunto.memoria.volcados) := by
  obtain ⟨s, hs, hdef, hx, -, -, hentradas⟩ := hastaElDump_ejemplo
  refine ⟨s, hs, hentradas, ?_⟩
  exact volcado_del_programa algoritmos_ejemplo previsto_hastaElDump
    (sin_fallas_agenda sin_fallas_hastaElDump) hs hdef hx MemoriaPrivada.sin_fallas_ejemplo rfl

end Corridas

end SistemaSecuencial
