import Tpssoo.SistemaSecuencial

/-!
# The processes that programs create

A module sends `INIT_PROC` from inside a turn, which does not end before the answer. As long as
the packet waits in the connection the process stands at the instruction, so the one that the
kernel creates is the one that the program, run alone, asks for next.
-/
namespace SistemaCreacion

open EnterosC KernelFunciones KernelVistas KernelHilos KernelLineas KernelContadores MemoriaEstado
  MemoriaPeticiones MemoriaEfectos MemoriaPropia CpuEstado CpuInstrucciones CpuGiros CpuDesalojo
  CpuPrivada CpuSecuencia SistemaCompleto SistemaPromesas SistemaSecuencial Tartamudeo
open KernelEstado hiding Cpu
open LineaCpu hiding Conexion
open CpuCiclo hiding recibirRespuesta paso
open SistemaCpus (Equipo Promete)

section Instrucciones

variable {σ : Type} {M : Maquina σ} {s s' : σ} {pc : ℤ} {inst : InstruccionCpu}
  {path : List Byte} {tamanio : ℤ} {e : Ejecutada σ} {pendiente : Bool} {g : Giro}

/-- An `INIT_PROC` with both parameters. -/
structure EsInitProc (inst : InstruccionCpu) (path : List Byte) (tamanio : ℤ) : Prop where
  parametros : none ∉ inst.parametros
  opcode : cadenaC inst.opcode = some opInitProc
  path : textoParametro inst 0 = some path
  tamanio : (textoParametro inst 1).map atoi = some tamanio

/-- It asks for its process and changes nothing else, on every machine. -/
theorem ejecutar_initProc (h : EsInitProc inst path tamanio) :
    ejecutarInstruccion M s pc inst =
      some ⟨.ejecucionOk, pc, none, [.initProc path tamanio], s⟩ := by
  obtain ⟨texto, htexto, rfl⟩ := Option.map_eq_some_iff.mp h.tamanio
  rw [ejecutarInstruccion, if_neg h.parametros, h.opcode, Option.bind_eq_bind, Option.bind_some,
    if_neg (by decide), if_neg (by decide), if_neg (by decide), if_neg (by decide),
    if_neg (by decide), if_pos rfl, h.path, htexto]
  rfl

/-- No other instruction asks for one. -/
theorem initProc_de_ejecutada (h : ejecutarInstruccion M s pc inst = some e)
    (hpide : .initProc path tamanio ∈ e.syscalls) : EsInitProc inst path tamanio := by
  -- the comparisons of `ejecutar_instruccion` in their order
  rw [ejecutarInstruccion] at h
  split at h
  · cases h
  next hparametros =>
  obtain ⟨opcode, hop, h⟩ := Option.bind_eq_some_iff.mp h
  split at h
  · cases h
    cases hpide
  split at h
  · obtain ⟨acc, -, h⟩ := Option.bind_eq_some_iff.mp h
    obtain ⟨r, -, rfl⟩ := Option.map_eq_some_iff.mp h
    cases hpide
  split at h
  · obtain ⟨destino, -, h⟩ := Option.bind_eq_some_iff.mp h
    cases h
    cases hpide
  split at h
  · split at h
    · obtain ⟨nombre, -, h⟩ := Option.bind_eq_some_iff.mp h
      obtain ⟨tiempo, -, h⟩ := Option.bind_eq_some_iff.mp h
      cases h
      cases hpide
    · cases h
      cases hpide
  split at h
  · cases h
    cases hpide
  split at h
  · next hinit =>
      obtain ⟨path', hpath, h⟩ := Option.bind_eq_some_iff.mp h
      obtain ⟨texto, htexto, h⟩ := Option.bind_eq_some_iff.mp h
      cases h
      cases List.mem_singleton.mp hpide
      exact ⟨hparametros, hinit ▸ hop, hpath, by rw [htexto]; rfl⟩
  split at h
  all_goals
    cases h
    cases hpide

theorem cerrarVuelta_casos (pendiente : Bool) (inst : InstruccionCpu) (e : Ejecutada σ) :
    (∃ pc, cerrarVuelta pendiente inst e = .sigue e.estado pc e.syscalls) ∨
      ∃ r, cerrarVuelta pendiente inst e = .termina e.estado r e.syscalls := by
  rw [cerrarVuelta]
  split
  · exact Or.inr ⟨_, rfl⟩
  · exact Or.inl ⟨_, rfl⟩

/-- A turn that asks for a process executes such an instruction. -/
theorem initProc_de_giro {r : Option InstruccionCpu × σ} (h : giro M pendiente s pc = some (g, s'))
    (hpide : (path, tamanio) ∈ pedidosDe g) (hfetch : M.fetch s pc = some r) :
    ∃ inst, r.1 = some inst ∧ EsInitProc inst path tamanio := by
  rw [giro] at h
  obtain ⟨v, hv, h⟩ := Option.bind_eq_some_iff.mp h
  rw [vuelta] at hv
  obtain ⟨⟨o, t⟩, hf, hv⟩ := Option.bind_eq_some_iff.mp hv
  obtain ⟨r', hr', heq⟩ := Option.map_eq_some_iff.mp hf
  cases hfetch.symm.trans hr'
  cases heq
  cases ho : r.1 with
  | none =>
    -- a fetch that fails ends the turn without a request
    rw [ho] at hv
    cases hv
    obtain ⟨_, -, h⟩ := Option.bind_eq_some_iff.mp h
    cases h
    cases hpide
  | some inst =>
    rw [ho] at hv
    obtain ⟨e, he, rfl⟩ := Option.map_eq_some_iff.mp hv
    have hpedidos : pedidosDe g = e.syscalls.filterMap pideInit := by
      rcases cerrarVuelta_casos pendiente inst e with ⟨pc', hv⟩ | ⟨r', hv⟩ <;> rw [hv] at h
      · cases h
        rfl
      · obtain ⟨_, -, h⟩ := Option.bind_eq_some_iff.mp h
        cases h
        rfl
    rw [hpedidos] at hpide
    obtain ⟨llamada, hllamada, hpath⟩ := List.mem_filterMap.mp hpide
    cases llamada with
    | initProc path' tamanio' =>
      cases hpath
      exact ⟨inst, rfl, initProc_de_ejecutada he hllamada⟩
    | _ => cases hpath

theorem giro_initProc {cfg : Config} {programa : List Instruccion} {i : Instruccion}
    (hinst : instruccionEn programa pc = some i) (h : EsInitProc (alCpu i) path tamanio)
    (pendiente : Bool) (xs : List Byte) :
    ∃ g, giro (privada cfg programa) pendiente xs pc = some (g, xs) ∧
      pedidosDe g = [(path, tamanio)] := by
  have hfetch : (anotada (privada cfg programa)).fetch (xs, []) pc =
      some (some (alCpu i), (xs, [])) := by
    simp only [anotada, privada, hinst, Option.map_some]
  rw [giro, vuelta, hfetch]
  dsimp only [Option.bind_eq_bind, Option.bind_some]
  rw [ejecutar_initProc h]
  cases pendiente <;> exact ⟨_, rfl, rfl⟩

end Instrucciones

section Programas

variable {cfg : Config} {cpus : ℕ → Cpu} {s s' : Equipo cfg ℕ} {e : SistemaCpus.Evento ℕ}
  {pid : ℤ} {p q : Proceso cfg}

/-- A step of Memoria or of a CPU keeps the program of a process that lives on. -/
theorem programa_paso (halg : ∀ i, (cpus i).algoritmoCache ≠ .otro)
    (hF : SistemaAislamiento.Fiel s) (hP : Promete e s)
    (h : SistemaCpus.paso cpus e s = some s')
    (hp : buscarProceso s.memoria.diccionarioProcesos pid = some p)
    (hq : buscarProceso s'.memoria.diccionarioProcesos pid = some q) : MismoPrograma p q := by
  cases e with
  | atiende env pet =>
    obtain ⟨-, envios, m, hat, rfl⟩ := SistemaCpus.atiende_casos h
    exact (mismo_efecto hP.1 (efecto_de_atender hF.sana.invariante.pids hat) hp hq).1
  | recibe i otro pc =>
    exact (mismo_procesos (SistemaAislamiento.solo_recibe hF hP h).procesos hp hq).1
  | gira i pendiente =>
    exact (mismo_procesos (SistemaAislamiento.solo_gira halg hF hP h).procesos hp hq).1

end Programas

section Paquetes

variable {c : ConfigKernel} {k : Kernel} {a : Accion} {fd : ℕ} {path : List Byte} {tamanio : ℤ}

theorem mem_recibir {fd₀ : ℕ} {x : PaqueteCpu} (h : x ∈ (recibir k fd₀).entrantes fd) :
    x ∈ k.entrantes fd := by
  rw [recibir] at h
  dsimp only at h
  by_cases hfd : fd = fd₀
  · rw [hfd, Function.update_self] at h
    rw [hfd]
    exact List.mem_of_mem_tail h
  · rwa [Function.update_of_ne hfd] at h

theorem mem_entregar {fd₀ : ℕ} {x y : PaqueteCpu} (h : x ∈ (entregar k fd₀ y).entrantes fd) :
    x ∈ k.entrantes fd ∨ fd = fd₀ ∧ x = y := by
  rw [entregar] at h
  dsimp only at h
  by_cases hfd : fd = fd₀
  · rw [hfd, Function.update_self, List.mem_append, List.mem_singleton] at h
    rw [hfd]
    exact h.imp_right fun hx => ⟨rfl, hx⟩
  · rw [Function.update_of_ne hfd] at h
    exact Or.inl h

/-- Only a module puts an `INIT_PROC` on its connection. -/
theorem pedido_estaba (ha : ∀ m, a ≠ .moduloInitProc m path tamanio)
    (h : .initProc path tamanio ∈ ((programa c).efecto k a).entrantes fd) :
    .initProc path tamanio ∈ k.entrantes fd := by
  cases hlinea : tocaLinea a with
  | false =>
    rw [(paquetes_efecto hlinea fd).2] at h
    exact h
  | true =>
    cases a with
    | cortoPlanifica =>
      dsimp only [programa, transicion] at h
      rcases planificar_casos c k with hk | hk | ⟨pcb, resto, -, -, hk⟩ |
          ⟨pcb, resto, i, d, -, -, hk⟩ <;> rw [hk] at h <;> exact h
    | recibeInitProc cpu fd₀ path' tamanio' absoluto =>
      rw [entrantes_initProc] at h
      exact mem_recibir h
    | recibeRespuesta cpu fd₀ pid pc motivo =>
      dsimp only [programa, transicion, recibirRespuesta] at h
      repeat' split at h
      · exact h
      · exact h
      · exact mem_recibir h
      · exact mem_recibir h
    | recibeOtro cpu fd₀ =>
      dsimp only [programa, transicion] at h
      split at h <;> exact mem_recibir h
    | moduloInitProc m path' tamanio' =>
      rcases mem_entregar h with h | ⟨-, heq⟩
      · exact h
      · cases heq
        exact absurd rfl (ha m)
    | moduloTermina m pc motivo =>
      rcases mem_entregar h with h | ⟨-, heq⟩
      · exact h
      · cases heq
    | moduloFallaFetch m pc =>
      rcases mem_entregar h with h | ⟨-, heq⟩
      · exact h
      · cases heq
    | conectaCpu _ | cpuResponde _ _ | moduloSaluda _ _ | moduloSaludaInterrupt _ _
    | moduloAborta _ _ | moduloAbortaInterrupt _ _ | moduloLee _ | moduloInterrumpe _
    | moduloDesconecta _ => exact h
    | _ => cases hlinea

theorem pcbs_initProc (c : ConfigKernel) (k : Kernel) (cpu fd : ℕ) (path : List Byte)
    (tamanio : ℤ) (absoluto : Option (List Byte)) :
    ∃ b : Pcb, ((programa c).efecto k (.recibeInitProc cpu fd path tamanio absoluto)).pcbs =
        Function.update k.pcbs k.ultimoPid (some b) ∧
      b.programCounter = 0 ∧ b.tamanioProceso = tamanio ∧
      b.pathPseudocodigo = absoluto.getD path := by
  obtain ⟨b, hpcbs, hb⟩ := pcbs_crear c (recibir k fd) path tamanio absoluto
  refine ⟨b, ?_, hb⟩
  dsimp only [programa, transicion]
  split <;> exact hpcbs

end Paquetes

variable {cfg : Config} {c : ConfigKernel} {cpus : ℕ → Cpu} {s s' : Completo cfg}

section Pasos

variable {es es' : List SistemaConjunto.Evento} {e : Evento} {i fd : ℕ} {m : ModuloCpu}
  {path : List Byte} {tamanio : ℤ}

/-- The process in the burst of a CPU stands at an `INIT_PROC`. -/
def EnInitProc (s : Completo cfg) (fd : ℕ) (path : List Byte) (tamanio : ℤ) : Prop :=
  ∃ pid pc p inst, (s.nucleos fd).rafaga = some (pid, pc) ∧
    buscarProceso s.conjunto.memoria.diccionarioProcesos pid = some p ∧
    instruccionEn p.instrucciones pc = some inst ∧ EsInitProc (alCpu inst) path tamanio

/-- It does while the packet is on its connection. -/
def Pendientes (s : Completo cfg) : Prop :=
  ∀ fd path tamanio, .initProc path tamanio ∈ s.conjunto.kernel.comun.entrantes fd →
    EnInitProc s fd path tamanio

theorem enInitProc_sigue (halg : ∀ i, (cpus i).algoritmoCache ≠ .otro) (hE : Entero es s)
    (hE' : Entero es' s') (hP : Previsto c e s) (hfallas : SinFallas cfg e)
    (hpaso : SistemaCompleto.paso c cpus e s = some s')
    (hdef : s'.conjunto.kernel.comun.indefinido = false)
    (hnucleo : s'.nucleos fd = s.nucleos fd) (h : EnInitProc s fd path tamanio) :
    EnInitProc s' fd path tamanio := by
  obtain ⟨pid, pc, p, inst, hraf, hp, hinst, hes⟩ := h
  have hcorre : SistemaCpus.Corre s'.equipo fd pid := by
    change (s'.nucleos fd).rafaga.map Prod.fst = some pid
    rw [hnucleo, hraf]
    rfl
  obtain ⟨q, hq⟩ := Option.ne_none_iff_exists'.mp (hE'.fiel.vive fd pid hcorre)
  refine ⟨pid, pc, q, inst, by rw [hnucleo, hraf], hq, ?_, hes⟩
  rcases proyecta_paso hE hP hfallas hpaso hdef with hequipo | ⟨e', hP', hpaso'⟩
  · rw [hequipo] at hq
    cases hp.symm.trans hq
    exact hinst
  · rw [(programa_paso halg hE.fiel hP'.1 hpaso' hp hq).instrucciones]
    exact hinst

/-- A module that asks for a process has it executing an `INIT_PROC`. -/
theorem enInitProc_pide (hE : Entero es s)
    (hgiro : ∃ pid pc g x, (s.nucleos fd).rafaga = some (pid, pc) ∧
      giro (maquina (cpus fd) pid) false (s.equipo.cpu fd) pc = some (g, x) ∧
      (path, tamanio) ∈ pedidosDe g) : EnInitProc s fd path tamanio := by
  obtain ⟨pid, pc, g, x, hraf, hgiro, hpide⟩ := hgiro
  have hcorre : SistemaCpus.Corre s.equipo fd pid := by
    change (s.nucleos fd).rafaga.map Prod.fst = some pid
    rw [hraf]
    rfl
  obtain ⟨p, hp⟩ := Option.ne_none_iff_exists'.mp (hE.fiel.vive fd pid hcorre)
  obtain ⟨m, hfetch, -⟩ := fetch_programa (cpus fd) hE.fiel.sana.invariante.pids hp pc
  have hlee : (maquina (cpus fd) pid).fetch (s.equipo.cpu fd) pc =
      some ((instruccionEn p.instrucciones pc).map alCpu,
        { s.equipo.cpu fd with memoria := m }) := by
    change (fetch (cpus fd) s.equipo.memoria pid pc).map _ = _
    rw [hfetch]
    rfl
  obtain ⟨inst, hinst, hes⟩ := initProc_de_giro hgiro hpide hlee
  obtain ⟨inst', hinst', rfl⟩ := Option.map_eq_some_iff.mp hinst
  exact ⟨pid, pc, p, inst', hraf, hp, hinst', hes⟩

/-- An action that is no `INIT_PROC` of a module leaves the packets there were. -/
theorem pendientes_mueve {k : Kernel} {l r : List Hilo} {a : Accion} (hI : Pendientes s)
    (hk : s.conjunto.kernel = ⟨k, l ++ (programa c).origen a :: r⟩)
    (ha : ∀ m path tamanio, a ≠ .moduloInitProc m path tamanio)
    (h : .initProc path tamanio ∈ ((programa c).efecto k a).entrantes fd) :
    EnInitProc s fd path tamanio := by
  apply hI fd path tamanio
  rw [hk]
  exact pedido_estaba (fun m => ha m path tamanio) h

theorem responde_sin_pedir {r : Respuesta} {a : Accion} (h : respuestaDe m r = some a)
    (m' : ModuloCpu) : a ≠ .moduloInitProc m' path tamanio := by
  rintro rfl
  rw [respuestaDe] at h
  split at h
  · cases h
  · obtain ⟨motivo, -, h⟩ := Option.map_eq_some_iff.mp h
    cases h

/-- A module that takes a turn has no packet on its connection. -/
theorem pendientes_gira (hE : Entero es s) (hI : Pendientes s)
    (h : SistemaCompleto.paso c cpus (.gira i m) s = some s')
    (hsigue : s'.nucleos fd = s.nucleos fd → EnInitProc s fd path tamanio →
      EnInitProc s' fd path tamanio)
    (hmem : .initProc path tamanio ∈ s'.conjunto.kernel.comun.entrantes fd) :
    EnInitProc s' fd path tamanio := by
  obtain ⟨hhilo, hespera, -, y, g, hy, hg, -, hequipo, -, hcierra⟩ := gira_casos h
  have hm : .modulo m ∈ s.conjunto.kernel.hilos := List.mem_of_getElem? hhilo
  obtain ⟨pc, x, -, hpid, -, hy'⟩ := giro_de_gira hE hm hy hg
  have hestaba : .initProc path tamanio ∈ s.conjunto.kernel.comun.entrantes fd := by
    rcases hcierra with ⟨u, pc', nuevas, -, hs'⟩ | ⟨u, r, nuevas, a, -, ha, hx⟩
    · rw [hs'] at hmem
      exact hmem
    · obtain ⟨k, l, r', hk, -, hs, -⟩ := kernel_casos hx
      rw [hs] at hmem
      dsimp only at hk
      rw [hk]
      exact pedido_estaba (responde_sin_pedir ha) hmem
  obtain ⟨o, hfase⟩ := fase_de_modulo hE.gobierno.regido.lineas hm
  have hvacia : s.conjunto.kernel.comun.entrantes m.fdDispatch = [] := by
    have hent := congrArg Linea.entrantes (hfase.de_rafaga hpid hespera).2
    rw [entrantes_linea] at hent
    exact hent
  have hne : fd ≠ m.fdDispatch := by
    rintro rfl
    rw [hvacia] at hestaba
    cases hestaba
  obtain ⟨-, hotros⟩ := nucleos_conCpu (hequipo.trans hy')
  exact hsigue (hotros fd hne) (hI fd path tamanio hestaba)

/-- A module that starts a burst has no packet on its connection either. -/
theorem pendientes_lee (hI : Pendientes s)
    (h : SistemaCompleto.paso c cpus (.lee i m) s = some s')
    (hsigue : s'.nucleos fd = s.nucleos fd → EnInitProc s fd path tamanio →
      EnInitProc s' fd path tamanio)
    (hmem : .initProc path tamanio ∈ s'.conjunto.kernel.comun.entrantes fd) :
    EnInitProc s' fd path tamanio := by
  obtain ⟨x, hx, h⟩ := lee_casos h
  obtain ⟨k, l, r, hk, -, hs, -⟩ := kernel_casos hx
  rcases recibe_casos h with ⟨p, -, -, hy, hs', -⟩ | ⟨-, rfl⟩
  · obtain ⟨hlibre, z, -, hy'⟩ := SistemaCpus.recibe_casos hy
    rw [hs'] at hmem
    dsimp only at hmem
    rw [hs] at hmem
    have hantes := pendientes_mueve hI hk (by simp) hmem
    have hne : fd ≠ m.fdDispatch := by
      rintro rfl
      obtain ⟨_, _, _, _, hraf, -⟩ := hantes
      cases hlibre.symm.trans hraf
    obtain ⟨-, hotros⟩ := nucleos_conCpu hy'
    exact hsigue (hotros fd hne) hantes
  · dsimp only at hmem
    rw [hs] at hmem
    exact hsigue rfl (pendientes_mueve hI hk (by simp) hmem)

theorem pendientes_paso (halg : ∀ i, (cpus i).algoritmoCache ≠ .otro) (hE : Entero es s)
    (hI : Pendientes s) (hP : Previsto c e s) (hfallas : SinFallas cfg e)
    (h : SistemaCompleto.paso c cpus e s = some s')
    (hdef : s'.conjunto.kernel.comun.indefinido = false) : Pendientes s' := by
  obtain ⟨es', hE'⟩ := entero_paso halg hE hP hfallas h hdef
  intro fd path tamanio hmem
  have hsigue : s'.nucleos fd = s.nucleos fd → EnInitProc s fd path tamanio →
      EnInitProc s' fd path tamanio := enInitProc_sigue halg hE hE' hP hfallas h hdef
  cases e with
  | kernel i a =>
    rw [SistemaCompleto.paso] at h
    split at h
    · cases h
    · next hraf =>
        obtain ⟨hx, hs'⟩ := actua_casos h
        obtain ⟨k, l, r, hk, -, hs, -⟩ := kernel_casos hx
        rw [hs] at hmem
        refine hsigue (by rw [hs']) (pendientes_mueve hI hk ?_ hmem)
        rintro m path tamanio rfl
        exact hraf rfl
  | recibe i a j =>
    obtain ⟨x, hx, rfl⟩ := Option.map_eq_some_iff.mp h
    obtain ⟨_, _, _, _, -, hespera, -, hmueve⟩ := SistemaConjunto.recibe_casos hx
    obtain ⟨k, l, r, hk, -, hx'⟩ := SistemaConjunto.mueve_casos hmueve
    dsimp only at hmem
    rw [hx'] at hmem
    refine hsigue rfl (pendientes_mueve hI hk ?_ hmem)
    rintro m path tamanio rfl
    cases hespera
  | atiende env j =>
    obtain ⟨x, y, -, -, hz, -, hnucleos, -⟩ := atiende_casos h
    obtain ⟨hilo, pet, envios, m, -, -, hs'⟩ := SistemaConjunto.atiende_casos hz
    rw [hs'] at hmem
    exact hsigue (by rw [hnucleos]) (hI fd path tamanio hmem)
  | lee i m => exact pendientes_lee hI h hsigue hmem
  | pide i m =>
    obtain ⟨pid, pc, g, x, path', tamanio', hraf, hgiro, hpide, -, hx, hs'⟩ := pide_casos h
    obtain ⟨k, l, r, hk, -, hs, -⟩ := kernel_casos hx
    rw [hs] at hmem
    refine hsigue (by rw [hs']) ?_
    rcases mem_entregar hmem with hmem | ⟨rfl, heq⟩
    · apply hI fd path tamanio
      rw [hk]
      exact hmem
    · cases heq
      exact enInitProc_pide hE ⟨pid, pc, g, x, hraf, hgiro, List.mem_of_mem_head? hpide⟩
  | gira i m => exact pendientes_gira hE hI h hsigue hmem

theorem pendientes_inicial (c : ConfigKernel) (path : List Byte) (tamanio : ℤ)
    (absoluto : Option (List Byte)) (entradasTlb entradasCache : ℕ → ℤ) :
    Pendientes (SistemaCompleto.arranque cfg c path tamanio absoluto entradasTlb
      entradasCache) := by
  intro fd path' tamanio' hmem
  rw [entrantes_inicial] at hmem
  cases hmem

end Pasos

section Corridas

variable {es : List Evento} {path : List Byte} {tamanio : ℤ} {absoluto : Option (List Byte)}
  {entradasTlb entradasCache : ℕ → ℤ}

theorem pendientes_corrida (halg : ∀ i, (cpus i).algoritmoCache ≠ .otro)
    (hC : Cumple (SistemaCompleto.paso c cpus) (Previsto c) es
      (SistemaCompleto.arranque cfg c path tamanio absoluto entradasTlb entradasCache))
    (hfallas : ∀ e ∈ es, SinFallas cfg e)
    (hrun : correr (SistemaCompleto.paso c cpus) es
      (SistemaCompleto.arranque cfg c path tamanio absoluto entradasTlb entradasCache) = some s)
    (hdef : s.conjunto.kernel.comun.indefinido = false) :
    (∃ es', Entero es' s) ∧ Pendientes s := by
  refine invariante_mientras (I := fun s => (∃ es', Entero es' s) ∧ Pendientes s)
    (D := fun s => s.conjunto.kernel.comun.indefinido = false) (fun _ _ _ => definido_antes) ?_
    ⟨⟨[], entero_inicial c path tamanio absoluto entradasTlb entradasCache⟩,
      pendientes_inicial c path tamanio absoluto entradasTlb entradasCache⟩
    (cumple_con hC hfallas) hrun hdef
  rintro e s s' ⟨⟨es', hE⟩, hI⟩ hP h hdef
  exact ⟨entero_paso halg hE hP.1 hP.2 h hdef, pendientes_paso halg hE hI hP.1 hP.2 h hdef⟩

/-- In every run, the process that the kernel creates for an `INIT_PROC` is the one that the
program of the process in the CPU, run alone through its turns so far, asks for next. -/
theorem proceso_del_programa (halg : ∀ i, (cpus i).algoritmoCache ≠ .otro)
    (hC : Cumple (SistemaCompleto.paso c cpus) (Previsto c) es
      (SistemaCompleto.arranque cfg c path tamanio absoluto entradasTlb entradasCache))
    (hfallas : ∀ e ∈ es, SinFallas cfg e)
    (hrun : correr (SistemaCompleto.paso c cpus) es
      (SistemaCompleto.arranque cfg c path tamanio absoluto entradasTlb entradasCache) = some s)
    (hdef : s.conjunto.kernel.comun.indefinido = false) {i cpu fd : ℕ} {ruta : List Byte}
    {tam : ℤ} {completa : Option (List Byte)}
    (h : SistemaCompleto.paso c cpus (.kernel i (.recibeInitProc cpu fd ruta tam completa)) s =
      some s') :
    ∃ (pid : ℤ) (p : Proceso cfg) (xs : List Byte) (b : Pcb),
      (s.nucleos fd).rafaga = some (pid, contador 0 (s.vidas pid).giros) ∧
      buscarProceso s.conjunto.memoria.diccionarioProcesos pid = some p ∧
      ejecutar (privada cfg p.instrucciones) (s.vidas pid).memoria 0
        ((s.vidas pid).giros.map Giro.pendiente) =
          some ((s.vidas pid).giros, xs, contador 0 (s.vidas pid).giros) ∧
      (∀ pendiente, ∃ g, giro (privada cfg p.instrucciones) pendiente xs
        (contador 0 (s.vidas pid).giros) = some (g, xs) ∧ pedidosDe g = [(ruta, tam)]) ∧
      s'.conjunto.kernel.comun.pcbs = Function.update s.conjunto.kernel.comun.pcbs
        s.conjunto.kernel.comun.ultimoPid (some b) ∧
      b.pathPseudocodigo = completa.getD ruta ∧ b.tamanioProceso = tam ∧
      b.programCounter = 0 := by
  obtain ⟨⟨es', hE⟩, hI⟩ := continua_corrida halg hC hfallas hrun hdef
  obtain ⟨-, hpend⟩ := pendientes_corrida halg hC hfallas hrun hdef
  change actua c i (.recibeInitProc cpu fd ruta tam completa) s = some s' at h
  obtain ⟨hx, -⟩ := actua_casos h
  obtain ⟨k, l, r, hk, hg, hs, -⟩ := kernel_casos hx
  have hhead := hg.2
  simp only [transicion, Bool.and_eq_true, decide_eq_true_eq] at hhead
  have hmem : .initProc ruta tam ∈ s.conjunto.kernel.comun.entrantes fd := by
    rw [hk]
    exact List.mem_of_mem_head? hhead.2
  obtain ⟨pid, pc, p, inst, hraf, hp, hinst, hes⟩ := hpend fd ruta tam hmem
  obtain rfl := hI.nucleos fd pid pc hraf
  obtain ⟨xs, hvivida, -⟩ := hE.fiel.memorias pid p hp
  obtain ⟨b, hpcbs, hpc, htam, hruta⟩ := pcbs_initProc c k cpu fd ruta tam completa
  refine ⟨pid, p, xs, b, hraf, hp, ejecutar_de_girar hvivida.giros (hI.cadena pid),
    fun pendiente => giro_initProc hinst hes pendiente xs, ?_, hruta, htam, hpc⟩
  rw [hs, hk]
  exact hpcbs

/-- The run up to the request of the second process. -/
abbrev hastaElPedido : List Evento :=
  enOrden (primeraRafaga ++ pideDump ++ (despachaOtraVez ++ segundaRafaga.take 3))

theorem sin_fallas_hastaElPedido : ∀ e ∈ hastaElPedido, SinFallas configEjemplo e := by
  refine sin_fallas_agenda (List.forall_mem_append.mpr ⟨sin_fallas_hastaElDump, ?_⟩)
  refine List.forall_mem_append.mpr ⟨sin_fallas_conMemoria _, ?_⟩
  simp [segundaRafaga, SinFallas]

/-- The program, which has done its dump, asks for `b`. -/
theorem proceso_del_programa_ejemplo : ∃ (s s' : Completo configEjemplo) (p : Proceso configEjemplo)
    (xs : List Byte) (b : Pcb),
    correr (SistemaCompleto.paso configuracion cpusEjemplo) hastaElPedido inicioEjemplo = some s ∧
      SistemaCompleto.paso configuracion cpusEjemplo
        (.kernel 1 (.recibeInitProc 0 0 [98] 4 none)) s = some s' ∧
      buscarProceso s.conjunto.memoria.diccionarioProcesos 0 = some p ∧
      (∀ pendiente, ∃ g, giro (privada configEjemplo p.instrucciones) pendiente xs
        (contador 0 (s.vidas 0).giros) = some (g, xs) ∧ pedidosDe g = [([98], 4)]) ∧
      s'.conjunto.kernel.comun.pcbs 1 = some b ∧ b.pathPseudocodigo = [98] ∧
      b.tamanioProceso = 4 := by
  have hrun : ((correr (SistemaCompleto.paso configuracion cpusEjemplo) hastaElPedido
      inicioEjemplo).any fun s => decide (s.conjunto.kernel.comun.indefinido = false ∧
        (s.nucleos 0).rafaga.map Prod.fst = some 0 ∧ s.conjunto.kernel.comun.ultimoPid = 1 ∧
        (SistemaCompleto.paso configuracion cpusEjemplo
          (.kernel 1 (.recibeInitProc 0 0 [98] 4 none)) s).isSome)) = true := by
    decide +kernel
  obtain ⟨s, hs, hobs⟩ := (Option.any_eq_true _ _).mp hrun
  obtain ⟨hdef, hcorre, hultimo, hpaso⟩ := of_decide_eq_true hobs
  obtain ⟨s', hs'⟩ := Option.isSome_iff_exists.mp hpaso
  obtain ⟨pid, p, xs, b, hraf, hp, -, hgiro, hpcbs, hruta, htam, -⟩ :=
    proceso_del_programa algoritmos_ejemplo (by decide +kernel) sin_fallas_hastaElPedido hs hdef hs'
  obtain rfl : pid = 0 := by
    rw [hraf] at hcorre
    exact Option.some.inj hcorre
  refine ⟨s, s', p, xs, b, hs, hs', hp, hgiro, ?_, hruta, htam⟩
  rw [hpcbs, hultimo, Function.update_self]

end Corridas

end SistemaCreacion
