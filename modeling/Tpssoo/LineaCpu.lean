import Tpssoo.KernelInterrupciones

/-!
# The protocol of a dispatch connection

The kernel sends a PCB and waits for the response to its burst. Meanwhile the module of the CPU
may ask for new processes, one at a time, and it waits for the answer to each. Whatever both do,
the connection is in one of the phases of that exchange.
-/
namespace LineaCpu

open EnterosC Protocolo KernelEstado KernelHilos KernelInterrupciones

/-- What a module does and has not read yet, and what the kernel has not read of it. -/
structure Linea where
  rafaga : Option ℤ
  esperaInit : Bool
  porLeer : List Mensaje
  entrantes : List PaqueteCpu

def pidDeRespuesta : PaqueteCpu → Option ℤ
  | .respuestaEjecucion pid _ _ => some pid
  | _ => none

/-- The processes whose burst has been sent to the CPU and not received back. -/
def Linea.procesos (y : Linea) : List ℤ :=
  y.porLeer.filterMap pidDeOpPcb ++ (y.rafaga.toList ++ y.entrantes.filterMap pidDeRespuesta)

/-- The phases of the exchange, under the process that the kernel has in execution. -/
inductive Fase : Option ℤ → Linea → Prop where
  | libre : Fase none ⟨none, false, [], []⟩
  | despachada (p : Pcb) : Fase (some p.pid) ⟨none, false, [.opPcb p], []⟩
  | ejecuta (pid : ℤ) : Fase (some pid) ⟨some pid, false, [], []⟩
  | pideInit (pid : ℤ) (path : List Byte) (tamanio : ℤ) :
    Fase (some pid) ⟨some pid, true, [], [.initProc path tamanio]⟩
  | acusada (pid : ℤ) : Fase (some pid) ⟨some pid, true, [.initProcesoOk], []⟩
  | responde (pid programCounter : ℤ) (motivo : Motivo) :
    Fase (some pid) ⟨none, false, [], [.respuestaEjecucion pid programCounter motivo]⟩

/-- What a module that is gone may have left on its connection. -/
inductive Resto : Option ℤ → List PaqueteCpu → Prop where
  | nada (o : Option ℤ) : Resto o []
  | pedido (o : Option ℤ) (path : List Byte) (tamanio : ℤ) : Resto o [.initProc path tamanio]
  | respuesta (pid programCounter : ℤ) (motivo : Motivo) :
    Resto (some pid) [.respuestaEjecucion pid programCounter motivo]

section Fases

variable {o : Option ℤ} {y : Linea}

theorem Fase.resto (h : Fase o y) : Resto o y.entrantes := by
  cases h with
  | responde pid programCounter motivo => exact .respuesta pid programCounter motivo
  | pideInit pid path tamanio => exact .pedido _ path tamanio
  | _ => exact .nada _

/-- In every phase, the process in execution is the only one whose burst is on its way. -/
theorem Fase.procesos (h : Fase o y) : y.procesos = o.toList := by
  cases h <;> rfl

theorem Fase.de_libre (h : Fase none y) : y = ⟨none, false, [], []⟩ := by
  cases h with
  | libre => rfl

theorem Fase.de_pedido {path : List Byte} {tamanio : ℤ} {resto : List PaqueteCpu} (h : Fase o y)
    (he : y.entrantes = .initProc path tamanio :: resto) :
    resto = [] ∧ ∃ pid, o = some pid ∧ y = ⟨some pid, true, [], [.initProc path tamanio]⟩ := by
  cases h with
  | pideInit pid path tamanio =>
    cases he
    exact ⟨rfl, pid, rfl, rfl⟩
  | _ => cases he

theorem Fase.de_respuesta {pid pc : ℤ} {motivo : Motivo} {resto : List PaqueteCpu} (h : Fase o y)
    (he : y.entrantes = .respuestaEjecucion pid pc motivo :: resto) :
    resto = [] ∧ o = some pid ∧ y = ⟨none, false, [], [.respuestaEjecucion pid pc motivo]⟩ := by
  cases h with
  | responde pid pc motivo =>
    cases he
    exact ⟨rfl, rfl, rfl⟩
  | _ => cases he

theorem Fase.de_rafaga {pid : ℤ} (h : Fase o y) (hr : y.rafaga = some pid)
    (he : y.esperaInit = false) : o = some pid ∧ y = ⟨some pid, false, [], []⟩ := by
  cases h with
  | ejecuta pid =>
    cases hr
    exact ⟨rfl, rfl⟩
  | pideInit | acusada => cases he
  | _ => cases hr

theorem Fase.sin_respuesta {p pid pc : ℤ} {motivo : Motivo} (h : Fase o y)
    (hr : y.rafaga = some pid) : .respuestaEjecucion p pc motivo ∉ y.entrantes := by
  cases h with
  | ejecuta | acusada => exact List.not_mem_nil
  | pideInit pid path tamanio =>
    intro hmem
    cases List.mem_singleton.mp hmem
  | _ => cases hr

/-- What a module reads next is the process that it is to execute, or the answer that it waits
for. -/
theorem Fase.de_lectura {x : Mensaje} {resto : List Mensaje} (h : Fase o y)
    (hl : y.porLeer = x :: resto) :
    resto = [] ∧ ((∃ p, x = .opPcb p ∧ o = some p.pid ∧ y = ⟨none, false, [x], []⟩) ∨
      ∃ pid, x = .initProcesoOk ∧ o = some pid ∧ y = ⟨some pid, true, [x], []⟩) := by
  cases h with
  | despachada p =>
    cases hl
    exact ⟨rfl, Or.inl ⟨p, rfl, rfl, rfl⟩⟩
  | acusada pid =>
    cases hl
    exact ⟨rfl, Or.inr ⟨pid, rfl, rfl, rfl⟩⟩
  | _ => cases hl

end Fases

/-- A dispatch connection: the threads of its module, what went each way, and how many threads of
the kernel are about to answer its handshake. -/
structure Conexion where
  modulos : List Hilo
  enviados : List Mensaje
  entrantes : List PaqueteCpu
  cerrada : Bool
  saludan : ℕ

def vacia : Conexion := ⟨[], [], [], false, 0⟩

/-- All but the answer to the handshake. -/
def sinSaludo : Mensaje → Bool
  | .handshakeOk => false
  | _ => true

/-- Before the two handshakes the module has read nothing else. -/
def Conexion.linea (x : Conexion) : Hilo → Linea
  | .modulo m => ⟨m.rafaga.map Prod.snd, m.esperaInit, x.enviados.drop m.leidos, x.entrantes⟩
  | _ => ⟨none, false, x.enviados.filter sinSaludo, x.entrantes⟩

/-- A step of the module, and what it sends. -/
inductive Avanza (enviados : List Mensaje) : Hilo → Hilo → List PaqueteCpu → Prop where
  | saluda (fd fdInterrupt : ℕ) (nombre : List Byte)
    (hsaludo : enviados.head? = some .handshakeOk) :
    Avanza enviados (.moduloSaluda fd nombre) (.moduloSaludaInterrupt fd fdInterrupt) []
  | empieza (fd fdInterrupt : ℕ) :
    Avanza enviados (.moduloSaludaInterrupt fd fdInterrupt)
      (.modulo ⟨fd, fdInterrupt, 1, 1, none, false, []⟩) []
  | lee (m : ModuloCpu) (hleidos : m.leidos < enviados.length) :
    Avanza enviados (.modulo m) (.modulo (m.leer enviados)) []
  | interrumpe (m m' : ModuloCpu) (hleidos : m'.leidos = m.leidos) (hrafaga : m'.rafaga = m.rafaga)
    (hespera : m'.esperaInit = m.esperaInit) : Avanza enviados (.modulo m) (.modulo m') []
  | pideInit (m : ModuloCpu) (path : List Byte) (tamanio : ℤ) (hrafaga : m.rafaga.isSome = true)
    (hespera : m.esperaInit = false) :
    Avanza enviados (.modulo m) (.modulo { m with esperaInit := true }) [.initProc path tamanio]
  | responde (m m' : ModuloCpu) (programCounter : ℤ) (motivo : Motivo)
    (hrafaga : m.rafaga.isSome = true) (hespera : m.esperaInit = false)
    (hleidos : m'.leidos = m.leidos) (hrafaga' : m'.rafaga = none)
    (hespera' : m'.esperaInit = false) :
    Avanza enviados (.modulo m) (.modulo m') [.respuestaEjecucion m.pid programCounter motivo]

/-- A step of either side of a connection, with the process that the kernel has in execution
there before and after it. -/
inductive Mueve : Option ℤ → Conexion → Option ℤ → Conexion → Prop where
  | queda (o : Option ℤ) (x : Conexion) : Mueve o x o x
  | saluda (o : Option ℤ) (x : Conexion) (n : ℕ) (hn : x.saludan = n + 1) :
    Mueve o x o { x with enviados := x.enviados ++ [.handshakeOk], saludan := n }
  | despacha (x : Conexion) (p : Pcb) :
    Mueve none x (some p.pid) { x with enviados := x.enviados ++ [.opPcb p] }
  | acusa (o : Option ℤ) (x : Conexion) (path : List Byte) (tamanio : ℤ) (resto : List PaqueteCpu)
    (he : x.entrantes = .initProc path tamanio :: resto) :
    Mueve o x o { x with enviados := x.enviados ++ [.initProcesoOk], entrantes := resto }
  | recibe (o : Option ℤ) (x : Conexion) (pid programCounter : ℤ) (motivo : Motivo)
    (resto : List PaqueteCpu)
    (he : x.entrantes = .respuestaEjecucion pid programCounter motivo :: resto) :
    Mueve o x none { x with entrantes := resto }
  | despide (o : Option ℤ) (x : Conexion) (hc : x.cerrada = true) (he : x.entrantes = []) :
    Mueve o x none x
  | avanza (o : Option ℤ) (x : Conexion) (h h' : Hilo) (ys : List PaqueteCpu)
    (hm : x.modulos = [h]) (ha : Avanza x.enviados h h' ys) :
    Mueve o x o { x with modulos := [h'], entrantes := x.entrantes ++ ys }
  | cierra (o : Option ℤ) (x : Conexion) (hm : x.modulos ≠ []) :
    Mueve o x o { x with modulos := [], cerrada := true }

structure Regular (o : Option ℤ) (x : Conexion) : Prop where
  una : x.modulos.length ≤ 1
  saludos : x.enviados.count .handshakeOk + x.saludan ≤ 1
  cerrada : x.cerrada = true → x.modulos = []
  saludada : ∀ fd fdInterrupt, .moduloSaludaInterrupt fd fdInterrupt ∈ x.modulos →
    x.enviados.head? = some .handshakeOk
  leidos : ∀ m, .modulo m ∈ x.modulos →
    .handshakeOk ∈ x.enviados ∧ m.leidos ≤ x.enviados.length
  fase : ∀ h ∈ x.modulos, Fase o (x.linea h)
  resto : x.modulos = [] → Resto o x.entrantes

section Pasos

variable {o o' : Option ℤ} {x x' : Conexion}

theorem entrantes_linea (x : Conexion) (h : Hilo) : (x.linea h).entrantes = x.entrantes := by
  cases h <;> rfl

theorem Resto.cambia {ys : List PaqueteCpu} (h : Resto none ys) (o : Option ℤ) : Resto o ys := by
  cases h with
  | nada => exact .nada o
  | pedido _ path tamanio => exact .pedido o path tamanio

/-- What the kernel sends is the last thing that the module has to read. -/
theorem linea_envia {h : Hilo} {a : Mensaje} (ys : List PaqueteCpu) (ha : sinSaludo a = true)
    (hl : ∀ m, h = .modulo m → m.leidos ≤ x.enviados.length) :
    ({ x with enviados := x.enviados ++ [a], entrantes := ys } : Conexion).linea h =
      { x.linea h with porLeer := (x.linea h).porLeer ++ [a], entrantes := ys } := by
  have hfiltro : (x.enviados ++ [a]).filter sinSaludo = x.enviados.filter sinSaludo ++ [a] := by
    rw [List.filter_append, List.filter_cons_of_pos ha, List.filter_nil]
  cases h with
  | modulo m =>
    dsimp only [Conexion.linea]
    rw [List.drop_append_of_le_length (hl m rfl)]
  | _ =>
    dsimp only [Conexion.linea]
    rw [hfiltro]

/-- The kernel sends a packet that is not the answer to the handshake. -/
theorem Regular.envia (h : Regular o x) {a : Mensaje} (ys : List PaqueteCpu)
    (ha : sinSaludo a = true)
    (hfase : ∀ d ∈ x.modulos, Fase o' { x.linea d with
      porLeer := (x.linea d).porLeer ++ [a], entrantes := ys })
    (hresto : x.modulos = [] → Resto o' ys) :
    Regular o' { x with enviados := x.enviados ++ [a], entrantes := ys } := by
  have hcount : (x.enviados ++ [a]).count .handshakeOk = x.enviados.count .handshakeOk := by
    rw [List.count_append, List.count_eq_zero_of_not_mem (a := .handshakeOk) (l := [a])]
    · rfl
    · intro hmem
      rw [← List.mem_singleton.mp hmem] at ha
      cases ha
  constructor
  · exact h.una
  · dsimp only
    rw [hcount]
    exact h.saludos
  · exact h.cerrada
  · intro fd fdInterrupt hmem
    rw [List.head?_append_of_ne_nil]
    · exact h.saludada fd fdInterrupt hmem
    · intro hnil
      have hhead := h.saludada fd fdInterrupt hmem
      rw [hnil] at hhead
      cases hhead
  · intro m hm
    obtain ⟨hok, hle⟩ := h.leidos m hm
    refine ⟨List.mem_append_left _ hok, ?_⟩
    rw [List.length_append]
    exact hle.trans (Nat.le_add_right _ _)
  · intro d hd
    rw [linea_envia ys ha fun m hm => (h.leidos m (hm ▸ hd)).2]
    exact hfase d hd
  · exact hresto

theorem Regular.despacha (h : Regular none x) (p : Pcb) :
    Regular (some p.pid) { x with enviados := x.enviados ++ [.opPcb p] } := by
  refine h.envia x.entrantes rfl (fun d hd => ?_) fun hm => (h.resto hm).cambia _
  have hlinea := (h.fase d hd).de_libre
  rw [← entrantes_linea x d, hlinea]
  exact .despachada p

theorem Regular.acusa (h : Regular o x) {path : List Byte} {tamanio : ℤ}
    {resto : List PaqueteCpu} (he : x.entrantes = .initProc path tamanio :: resto) :
    Regular o { x with enviados := x.enviados ++ [.initProcesoOk], entrantes := resto } := by
  refine h.envia resto rfl (fun d hd => ?_) fun hm => ?_
  · obtain ⟨rfl, pid, rfl, hlinea⟩ := (h.fase d hd).de_pedido ((entrantes_linea x d).trans he)
    rw [hlinea]
    exact .acusada pid
  · have hresto := h.resto hm
    rw [he] at hresto
    cases hresto
    exact .nada o

/-- A response is to the burst in execution, and it is the last packet. -/
theorem Regular.respuesta (h : Regular o x) {pid pc : ℤ} {motivo : Motivo}
    {resto : List PaqueteCpu} (he : x.entrantes = .respuestaEjecucion pid pc motivo :: resto) :
    resto = [] ∧ o = some pid := by
  by_cases hm : x.modulos = []
  · have hresto := h.resto hm
    rw [he] at hresto
    cases hresto
    exact ⟨rfl, rfl⟩
  · obtain ⟨d, hd⟩ := List.exists_mem_of_ne_nil _ hm
    obtain ⟨hnil, ho, -⟩ := (h.fase d hd).de_respuesta ((entrantes_linea x d).trans he)
    exact ⟨hnil, ho⟩

theorem Regular.recibe (h : Regular o x) {pid pc : ℤ} {motivo : Motivo} {resto : List PaqueteCpu}
    (he : x.entrantes = .respuestaEjecucion pid pc motivo :: resto) :
    Regular none { x with entrantes := resto } := by
  have hlinea : ∀ d, ({ x with entrantes := resto } : Conexion).linea d =
      { x.linea d with entrantes := resto } := by
    intro d
    cases d <;> rfl
  obtain ⟨rfl, rfl⟩ := h.respuesta he
  refine ⟨h.una, h.saludos, h.cerrada, h.saludada, h.leidos, fun d hd => ?_, fun _ => .nada none⟩
  obtain ⟨-, -, hfase⟩ := (h.fase d hd).de_respuesta ((entrantes_linea x d).trans he)
  rw [hlinea, hfase]
  exact .libre

/-- The answer to the handshake, before which the module does not start. -/
theorem Regular.saluda (h : Regular o x) {n : ℕ} (hn : x.saludan = n + 1) :
    Regular o { x with enviados := x.enviados ++ [.handshakeOk], saludan := n } := by
  have hsaludos := h.saludos
  have hno : .handshakeOk ∉ x.enviados := by
    rw [← List.count_eq_zero]
    omega
  have hmodulo : ∀ m, .modulo m ∉ x.modulos := fun m hm => hno (h.leidos m hm).1
  constructor
  · exact h.una
  · dsimp only
    rw [List.count_append, List.count_singleton_self]
    omega
  · exact h.cerrada
  · intro fd fdInterrupt hmem
    exact absurd (List.mem_of_mem_head? (h.saludada fd fdInterrupt hmem)) hno
  · intro m hm
    exact absurd hm (hmodulo m)
  · intro d hd
    have hfase := h.fase d hd
    have hfiltro : (x.enviados ++ [Mensaje.handshakeOk]).filter sinSaludo =
        x.enviados.filter sinSaludo := by
      rw [List.filter_append, List.filter_cons_of_neg (by simp [sinSaludo]), List.filter_nil,
        List.append_nil]
    cases d with
    | modulo m => exact absurd hd (hmodulo m)
    | _ =>
      dsimp only [Conexion.linea] at hfase ⊢
      rwa [hfiltro]
  · exact h.resto

/-- A module that has answered the handshakes has read just the first packet. -/
theorem tras_saludo (h : Regular o x) (hhead : x.enviados.head? = some .handshakeOk) :
    x.enviados.drop 1 = x.enviados.filter sinSaludo := by
  obtain ⟨resto, hresto⟩ := List.head?_eq_some_iff.mp hhead
  have hsaludos := h.saludos
  rw [hresto, List.count_cons_self] at hsaludos
  have hno : .handshakeOk ∉ resto := by
    rw [← List.count_eq_zero]
    omega
  rw [hresto, List.filter_cons_of_neg (by simp [sinSaludo]), List.drop_one, List.tail_cons]
  refine (List.filter_eq_self.mpr fun a ha => ?_).symm
  cases a with
  | handshakeOk => exact absurd ha hno
  | _ => rfl

/-- A step of the module takes its connection to another phase. -/
theorem fase_avanza (h : Regular o x) {d d' : Hilo} {ys : List PaqueteCpu} (hd : d ∈ x.modulos)
    (ha : Avanza x.enviados d d' ys) :
    Fase o (({ x with entrantes := x.entrantes ++ ys } : Conexion).linea d') := by
  have hfase := h.fase d hd
  cases ha with
  | saluda fd fdInterrupt nombre hsaludo =>
    rw [List.append_nil]
    exact hfase
  | empieza fd fdInterrupt =>
    rw [List.append_nil]
    dsimp only [Conexion.linea] at hfase ⊢
    rwa [tras_saludo h (h.saludada fd fdInterrupt hd)]
  | lee m hleidos =>
    rw [List.append_nil]
    dsimp only [Conexion.linea] at hfase ⊢
    have hget : x.enviados[m.leidos]? = some x.enviados[m.leidos] :=
        List.getElem?_eq_getElem hleidos
    have hdrop := List.drop_eq_getElem_cons hleidos
    obtain ⟨hnil, hlee⟩ := hfase.de_lectura hdrop
    rcases hlee with ⟨p, hp, rfl, hlinea⟩ | ⟨pid, hp, rfl, hlinea⟩
    · obtain ⟨hraf, hesp, -, hent⟩ := Linea.mk.inj hlinea
      rw [ModuloCpu.leer, hget, hp, hesp]
      dsimp only
      rw [if_neg (by simp), hnil, hent]
      exact .ejecuta p.pid
    · obtain ⟨hraf, hesp, -, hent⟩ := Linea.mk.inj hlinea
      rw [ModuloCpu.leer, hget, hp]
      dsimp only
      rw [hraf, hnil, hent]
      exact .ejecuta pid
  | interrumpe m m' hleidos hrafaga hespera =>
    rw [List.append_nil]
    dsimp only [Conexion.linea] at hfase ⊢
    rwa [hleidos, hrafaga, hespera]
  | pideInit m path tamanio hrafaga hespera =>
    obtain ⟨⟨n, pid⟩, hraf⟩ := Option.isSome_iff_exists.mp hrafaga
    dsimp only [Conexion.linea] at hfase ⊢
    rw [hraf] at hfase ⊢
    obtain ⟨rfl, hlinea⟩ := hfase.de_rafaga rfl hespera
    obtain ⟨-, -, hleer, hent⟩ := Linea.mk.inj hlinea
    rw [hleer, hent]
    exact .pideInit pid path tamanio
  | responde m m' pc motivo hrafaga hespera hleidos hrafaga' hespera' =>
    obtain ⟨⟨n, pid⟩, hraf⟩ := Option.isSome_iff_exists.mp hrafaga
    dsimp only [Conexion.linea] at hfase ⊢
    rw [hraf] at hfase
    obtain ⟨rfl, hlinea⟩ := hfase.de_rafaga rfl hespera
    obtain ⟨-, -, hleer, hent⟩ := Linea.mk.inj hlinea
    rw [hrafaga', hespera', hleidos, hleer, hent, ModuloCpu.pid, hraf]
    exact .responde pid pc motivo

theorem Regular.avanza (h : Regular o x) {d d' : Hilo} {ys : List PaqueteCpu}
    (hm : x.modulos = [d]) (ha : Avanza x.enviados d d' ys) :
    Regular o { x with modulos := [d'], entrantes := x.entrantes ++ ys } := by
  have hd : d ∈ x.modulos := hm ▸ List.mem_cons_self
  constructor
  · exact le_rfl
  · exact h.saludos
  · intro hc
    rw [h.cerrada hc] at hm
    cases hm
  · intro fd fdInterrupt hmem
    cases List.mem_singleton.mp hmem
    cases ha with
    | saluda _ _ _ hsaludo => exact hsaludo
  · intro m hmem
    cases List.mem_singleton.mp hmem
    cases ha with
    | empieza fd fdInterrupt =>
      have hhead := h.saludada fd fdInterrupt hd
      refine ⟨List.mem_of_mem_head? hhead, List.length_pos_iff.mpr fun hnil => ?_⟩
      rw [hnil] at hhead
      cases hhead
    | lee m hleidos =>
      refine ⟨(h.leidos m hd).1, ?_⟩
      rw [ModuloCpu.leer, List.getElem?_eq_getElem hleidos]
      dsimp only
      split
      · split <;> exact hleidos
      · exact hleidos
      · exact hleidos.le
    | interrumpe m _ hleidos => exact hleidos ▸ h.leidos m hd
    | pideInit m => exact h.leidos m hd
    | responde m _ _ _ _ _ hleidos => exact hleidos ▸ h.leidos m hd
  · intro h' hmem
    rw [List.mem_singleton.mp hmem]
    have hfase := fase_avanza h hd ha
    cases d' <;> exact hfase
  · intro hnil
    cases hnil

theorem regular_vacia : Regular none vacia := by
  refine ⟨Nat.zero_le _, Nat.zero_le _, fun _ => rfl, ?_, ?_, ?_, fun _ => .nada none⟩
  · intro fd fdInterrupt hmem
    cases hmem
  · intro m hmem
    cases hmem
  · intro d hd
    cases hd

theorem regular_abierta (fd : ℕ) (nombre : List Byte) :
    Regular none { vacia with modulos := [.moduloSaluda fd nombre], saludan := 1 } := by
  refine ⟨le_rfl, le_rfl, ?_, ?_, ?_, ?_, ?_⟩
  · intro hc
    cases hc
  · intro fd' fdInterrupt hmem
    cases List.mem_singleton.mp hmem
  · intro m hmem
    cases List.mem_singleton.mp hmem
  · intro d hd
    rw [List.mem_singleton.mp hd]
    exact .libre
  · intro hm
    cases hm

/-- Whatever either side does, the connection stays in a phase of the exchange. -/
theorem Regular.mueve (h : Regular o x) (hm : Mueve o x o' x') : Regular o' x' := by
  cases hm with
  | queda => exact h
  | saluda _ _ n hn => exact h.saluda hn
  | despacha _ p => exact h.despacha p
  | acusa _ _ path tamanio resto he => exact h.acusa he
  | recibe _ _ pid pc motivo resto he => exact h.recibe he
  | despide _ _ hc he =>
    refine ⟨h.una, h.saludos, h.cerrada, h.saludada, h.leidos, fun d hd => ?_, fun _ => ?_⟩
    · rw [h.cerrada hc] at hd
      cases hd
    · rw [he]
      exact .nada none
  | avanza _ _ d d' ys hm ha => exact h.avanza hm ha
  | cierra =>
    refine ⟨Nat.zero_le _, h.saludos, fun _ => rfl, ?_, ?_, ?_, fun _ => ?_⟩
    · intro fd fdInterrupt hmem
      cases hmem
    · intro m hmem
      cases hmem
    · intro d hd
      cases hd
    · cases hm : x.modulos with
      | nil => exact h.resto hm
      | cons d ds =>
        have hresto := (h.fase d (hm ▸ List.mem_cons_self)).resto
        rwa [entrantes_linea] at hresto

/-- On a connection that nobody uses, a PCB is all that may appear. -/
theorem Mueve.de_vacia (hm : Mueve o vacia none x') : x' = vacia := by
  cases hm with
  | queda => rfl
  | saluda _ _ n hn => cases hn
  | acusa _ _ _ _ _ he => cases he
  | recibe _ _ _ _ _ _ he => cases he
  | despide _ _ hc => cases hc
  | avanza _ _ _ _ _ hm => cases hm
  | cierra _ _ hm => exact absurd rfl hm

/-- Nothing more comes from a module that is gone. -/
theorem Mueve.cerrada (hm : Mueve o x o' x') (h : Regular o x) (hc : x.cerrada = true)
    (he : x.entrantes = []) : x'.cerrada = true ∧ x'.entrantes = [] := by
  cases hm with
  | acusa _ _ _ _ _ he' | recibe _ _ _ _ _ _ he' => cases he.symm.trans he'
  | avanza _ _ d _ _ hm => cases (h.cerrada hc).symm.trans hm
  | cierra => exact ⟨rfl, he⟩
  | _ => exact ⟨hc, he⟩

end Pasos

end LineaCpu
