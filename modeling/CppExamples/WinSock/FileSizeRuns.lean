import CppExamples.WinSock.FileSizeTcp

/-!
# What the client prints

* In every run, what the client prints, put together, is the front of the answer
  to a name, and that name is a front of the one that was typed
  (`printedText_prefix`).
* If all calls succeed, a run goes through the phases of `Phase`, one after the
  other, and the client has printed what the server's `send` has taken of the
  answer when the connection is closed.  Nothing can go wrong with the order of the
  steps, except that an empty name is never sent, and then both programs wait for
  ever.
* The answer is the right one if every receive happens to take what was sent as a
  whole, and every `send` all that it is given (`answers_of_whole`), and not
  otherwise in general.
-/

namespace CppExamples.WinSock.FileSize

open CppExamples.Lib

namespace Session

/-- The text that the client has printed, all lines together. -/
def printedText (s : Session) : List UInt8 := s.clientConsole.flatMap Line.text

/-- The answer to a name of which the server has received this much. -/
def answer (files : Files) (received : List UInt8) : List UInt8 :=
  if received = [] then [] else sendbuf (fileSize files received)

/-- What the server is about to send. -/
def pending (s : Session) : List UInt8 :=
  match s.server with
  | .send sendbuf => sendbuf
  | _ => []

/-! ## Every run -/

/-- The server has received `name`, and answers that. -/
structure Answers (files : Files) (name : List UInt8) (s : Session) : Prop where
  front : name <+: s.filename
  text : s.printedText ++ (s.toClient.inFlight ++ s.pending) <+: answer files name
  waiting : s.server = .recv → name = [] ∧ s.toServer.inFlight <+: s.filename
  unsent : s.client = .send → s.toServer.inFlight = []

variable {files : Files} {line name : List UInt8} {s s' : Session}

theorem answers_start (line : List UInt8) : Answers files [] (start line) :=
  ⟨List.nil_prefix, List.nil_prefix, fun _ ↦ ⟨rfl, List.nil_prefix⟩, fun _ ↦ rfl⟩

/-- A call of the client that prints the lines `ls`, none of them an answer. -/
theorem Answers.of_client (h : Answers files name s) (ls : List Line)
    (hls : ls.flatMap Line.text = []) (hprint : s'.clientConsole = s.clientConsole ++ ls)
    (hf : s'.filename = s.filename) (hc : s'.toClient.inFlight = s.toClient.inFlight)
    (hs : s'.server = s.server) (ht : s'.toServer.inFlight = s.toServer.inFlight)
    (hsent : s'.client ≠ .send) : Answers files name s' where
  front := hf ▸ h.front
  text := by
    rw [printedText, hprint, List.flatMap_append, hls, List.append_nil, hc, pending, hs]
    exact h.text
  waiting := by
    rw [hs, ht, hf]
    exact h.waiting
  unsent := fun hc ↦ absurd hc hsent

/-- A call of the server that goes on to a state in which it does not receive. -/
theorem Answers.of_server (h : Answers files name s) {name' : List UInt8}
    (hname : name' <+: s.filename) (hf : s'.filename = s.filename)
    (hprint : s'.clientConsole = s.clientConsole) (hserver : s'.server ≠ .recv)
    (hclient : s'.client = s.client)
    (ht : s.toServer.inFlight = [] → s'.toServer.inFlight = [])
    (htext : s.printedText ++ (s'.toClient.inFlight ++ s'.pending) <+: answer files name') :
    Answers files name' s' where
  front := hf ▸ hname
  text := by
    rw [printedText, hprint]
    exact htext
  waiting := fun hs ↦ absurd hs hserver
  unsent := fun hc ↦ ht (h.unsent (hclient ▸ hc))

/-- A call of the server after which it has nothing to send. -/
theorem Answers.of_server_silent (h : Answers files name s) (hf : s'.filename = s.filename)
    (hprint : s'.clientConsole = s.clientConsole) (hserver : s'.server ≠ .recv)
    (hclient : s'.client = s.client) (ht : s'.toServer = s.toServer)
    (hc : s'.toClient.inFlight = s.toClient.inFlight) (hpending : s'.pending = []) :
    Answers files name s' := by
  refine h.of_server h.front hf hprint hserver hclient (fun hnil ↦ by rw [ht, hnil])
    (List.IsPrefix.trans ?_ h.text)
  rw [hc, hpending, List.append_nil, ← List.append_assoc]
  exact List.prefix_append _ _

theorem Answers.clientSend (h : Answers files name s) (hc : s.client = .send) (r : Option Nat) :
    Answers files name (s.clientSend r) := by
  cases r with
  | none => exact h.of_client [.sendFailed] rfl rfl rfl rfl rfl rfl nofun
  | some n =>
      refine ⟨h.front, h.text, fun hs ↦ ⟨(h.waiting hs).1, ?_⟩, nofun⟩
      change s.toServer.inFlight ++ s.filename.take n <+: s.filename
      rw [h.unsent hc, List.nil_append]
      exact List.take_prefix n _

theorem Answers.clientRecv (h : Answers files name s) (hc : s.client = .recv) (k : Nat) :
    Answers files name (s.clientRecv k) := by
  cases k with
  | zero => exact h.of_client [.connectionClosed] rfl rfl rfl rfl rfl rfl nofun
  | succ k =>
      refine ⟨h.front, ?_, h.waiting, fun hsend ↦ ?_⟩
      · have htext : (s.clientRecv (k + 1)).printedText =
            s.printedText ++ (s.toClient.recv (k + 1)).1 := by
          simp [printedText, Session.clientRecv, clientPrint]
        have hflight : (s.clientRecv (k + 1)).toClient = (s.toClient.recv (k + 1)).2 := rfl
        rw [htext, hflight, List.append_assoc, ← List.append_assoc _ _ (pending _),
          Stream.recv_append]
        exact h.text
      · cases hc.symm.trans hsend

theorem Answers.serverRecv (h : Answers files name s) (hs : s.server = .recv) {k : Nat}
    (hk : s.toServer.delivers DEFAULT_BUFLEN k = true) :
    ∃ name', Answers files name' (s.serverRecv files k) := by
  cases k with
  | zero => exact ⟨name, h.of_server_silent rfl rfl nofun rfl rfl rfl rfl⟩
  | succ k =>
      obtain ⟨rfl, hfront⟩ := h.waiting hs
      obtain ⟨hprinted, hflight, -⟩ :
          s.printedText = [] ∧ s.toClient.inFlight = [] ∧ s.pending = [] := by
        simpa [answer] using h.text
      have hne := Stream.recv_ne_nil hk
      refine ⟨(s.toServer.recv (k + 1)).1, h.of_server ((Stream.recv_prefix _ _).trans hfront)
        rfl rfl nofun rfl (fun hnil ↦ ?_) ?_⟩
      · change s.toServer.inFlight.drop (k + 1) = []
        rw [hnil, List.drop_nil]
      · change s.printedText ++ (s.toClient.inFlight ++ sendbuf _) <+: _
        rw [hprinted, hflight, answer, if_neg hne]
        exact ⟨[], List.append_nil _⟩

theorem Answers.serverSend (h : Answers files name s) {text : List UInt8}
    (hs : s.server = .send text) (r : Option Nat) : Answers files name (s.serverSend text r) := by
  have hpending : s.pending = text := by rw [pending, hs]
  cases r with
  | none => exact h.of_server_silent rfl rfl nofun rfl rfl rfl rfl
  | some n =>
      refine h.of_server h.front rfl rfl nofun rfl id ?_
      change s.printedText ++ (s.toClient.inFlight ++ text.take n ++ []) <+: _
      have htake : s.printedText ++ (s.toClient.inFlight ++ text.take n) <+:
          s.printedText ++ (s.toClient.inFlight ++ s.pending) := by
        rw [hpending, List.prefix_append_right_inj, List.prefix_append_right_inj]
        exact List.take_prefix n text
      rw [List.append_nil]
      exact htake.trans h.text

theorem Answers.step (h : Answers files name s) {c : Call} (he : s.enabled c = true)
    (hs : s.step files c = some s') : ∃ name', Answers files name' s' := by
  cases c with
  | clientSend r =>
      cases hs
      simp only [enabled, Bool.and_eq_true, decide_eq_true_eq] at he
      exact ⟨name, h.clientSend he.1 r⟩
  | clientRecv k =>
      cases hs
      simp only [enabled, Bool.and_eq_true, decide_eq_true_eq] at he
      exact ⟨name, h.clientRecv he.1 k⟩
  | clientRecvError =>
      cases hs
      exact ⟨name, h.of_client [.recvFailed] rfl rfl rfl rfl rfl rfl nofun⟩
  | clientShutdown error =>
      cases hs
      cases error with
      | true => exact ⟨name, h.of_client [.shutdownFailed] rfl rfl rfl rfl rfl rfl nofun⟩
      | false =>
          exact ⟨name, h.of_client [] rfl (List.append_nil _).symm rfl rfl rfl rfl nofun⟩
  | serverRecv k =>
      cases hs
      simp only [enabled, Bool.and_eq_true, decide_eq_true_eq] at he
      exact h.serverRecv he.1 he.2
  | serverRecvError =>
      cases hs
      exact ⟨name, h.of_server_silent rfl rfl nofun rfl rfl rfl rfl⟩
  | serverSend r =>
      simp only [Session.step] at hs
      split at hs
      · rename_i text hsend
        cases hs
        exact ⟨name, h.serverSend hsend r⟩
      · cases hs
  | serverShutdown error =>
      cases hs
      cases error <;> exact ⟨name, h.of_server_silent rfl rfl nofun rfl rfl rfl rfl⟩

theorem filename_step {c : Call} (hs : s.step files c = some s') : s'.filename = s.filename := by
  cases c with
  | serverSend r =>
      simp only [Session.step] at hs
      split at hs
      · cases hs
        cases r <;> rfl
      · cases hs
  | clientRecv k => cases hs; cases k <;> rfl
  | serverRecv k => cases hs; cases k <;> rfl
  | clientRecvError => cases hs; rfl
  | serverRecvError => cases hs; rfl
  | clientSend r => cases hs; cases r <;> rfl
  | clientShutdown error => cases hs; cases error <;> rfl
  | serverShutdown error => cases hs; cases error <;> rfl

theorem filename_eq {G : Session → Call → Prop} (h : (system files line).Reachable G s) :
    s.filename = getFilename line := by
  induction h with
  | init hi => rw [hi]; rfl
  | step _ _ _ hs ih => exact (filename_step hs).trans ih

/-- **What the client prints is the front of one answer**, in every run: to a name
that is itself a front of the one that was typed. -/
theorem printedText_prefix (h : (system files line).Reachable Always s) :
    ∃ name, name <+: getFilename line ∧ s.printedText <+: answer files name := by
  obtain ⟨name, hname⟩ := System.Reachable.invariant (I := fun s ↦ ∃ name, Answers files name s)
    (by rintro s rfl; exact ⟨[], answers_start line⟩)
    (by rintro s c s' - ⟨name, hname⟩ he - hs; exact hname.step he hs) h
  exact ⟨name, filename_eq h ▸ hname.front, (List.prefix_append _ _).trans hname.text⟩

/-- A file `a` of five bytes, and no other. -/
def fileA (filename : List UInt8) : Option Nat := if filename = [97] then some 5 else none

/-- The name `ab` is typed, and the server receives the `a` first: the client is
told that the file `ab` has five bytes. -/
theorem printedText_split : ∃ s, (system fileA [97, 98]).Reachable Always s ∧
    s.clientConsole = [.size [97, 98] [53]] ∧
      ∃ name, name <+: getFilename [97, 98] ∧ s.printedText <+: answer fileA name := by
  obtain ⟨s, hs, hp⟩ : ∃ s, (system fileA [97, 98]).Reachable Always s ∧
      s.clientConsole = [.size [97, 98] [53]] :=
    System.always_of_exec (.init rfl)
      [.clientSend (some 2), .serverRecv 1, .serverSend (some 1), .clientRecv 1] (by decide)
  exact ⟨s, hs, hp, printedText_prefix hs⟩

/-! ## Runs in which every call succeeds -/

/-- What the client has printed for the pieces of an answer. -/
def reports (filename : List UInt8) (pieces : List (List UInt8)) : List Line :=
  pieces.map (report filename)

/-- A `send` that succeeds takes some bytes of the text, unless there are none. -/
def Taken (text sent : List UInt8) : Prop := sent <+: text ∧ (sent = [] → text = [])

theorem taken_take {text : List UInt8} {n : Nat} (h : takes text.length (some n) = true) :
    Taken text (text.take n) := by
  refine ⟨List.take_prefix n text, fun hnil ↦ ?_⟩
  simp only [takes, Bool.and_eq_true, decide_eq_true_eq] at h
  rcases List.take_eq_nil_iff.mp hnil with hzero | hempty
  · exact List.length_eq_zero_iff.mp (h.2 hzero)
  · exact hempty

/-- The server has received `name`, and `left` is what it has not received of what
the client has sent. -/
structure Received (filename name left : List UInt8) : Prop where
  ne_nil : name ≠ []
  front : name ++ left <+: filename

/-- The client has received `pieces` of the answer to `name`; `T` says what the
server's `send` has taken of this answer. -/
structure Printed (T : List UInt8 → List UInt8 → Prop) (files : Files) (name : List UInt8)
    (pieces : List (List UInt8)) (inFlight : List UInt8) : Prop where
  ne_nil : ∀ p ∈ pieces, p ≠ []
  taken : T (sendbuf (fileSize files name)) (pieces.flatten ++ inFlight)

/-- The phases of a run in which every call succeeds. -/
inductive Phase (T : List UInt8 → List UInt8 → Prop) (files : Files) (filename : List UInt8) :
    Session → Prop where
  | typing : Phase T files filename ⟨filename, .idle, .idle, .send, .recv, [], []⟩
  | asked {sent : List UInt8} (hsent : Taken filename sent) :
      Phase T files filename ⟨filename, ⟨sent, false⟩, .idle, .recv, .recv, [], []⟩
  | answering {name left : List UInt8} (hname : Received filename name left) :
      Phase T files filename ⟨filename, ⟨left, false⟩, .idle, .recv,
        .send (sendbuf (fileSize files name)), [], [.fileSize (fileSize files name)]⟩
  | answered {name left inFlight : List UInt8} {pieces : List (List UInt8)}
      (hname : Received filename name left) (hprinted : Printed T files name pieces inFlight) :
      Phase T files filename ⟨filename, ⟨left, false⟩, ⟨inFlight, false⟩, .recv, .shutdown,
        reports filename pieces, [.fileSize (fileSize files name), .connectionClosing]⟩
  | ended {name left inFlight : List UInt8} {pieces : List (List UInt8)}
      (hname : Received filename name left) (hprinted : Printed T files name pieces inFlight) :
      Phase T files filename ⟨filename, ⟨left, false⟩, ⟨inFlight, true⟩, .recv, .returned 0,
        reports filename pieces, [.fileSize (fileSize files name), .connectionClosing]⟩
  | closed {name left : List UInt8} {pieces : List (List UInt8)}
      (hname : Received filename name left) (hprinted : Printed T files name pieces []) :
      Phase T files filename ⟨filename, ⟨left, false⟩, ⟨[], true⟩, .shutdown, .returned 0,
        reports filename pieces ++ [.connectionClosed],
        [.fileSize (fileSize files name), .connectionClosing]⟩
  | returned {name left : List UInt8} {pieces : List (List UInt8)}
      (hname : Received filename name left) (hprinted : Printed T files name pieces []) :
      Phase T files filename ⟨filename, ⟨left, true⟩, ⟨[], true⟩, .returned 0, .returned 0,
        reports filename pieces ++ [.connectionClosed],
        [.fileSize (fileSize files name), .connectionClosing]⟩

variable {filename : List UInt8} {T : List UInt8 → List UInt8 → Prop}

theorem Received.filename_ne_nil {left : List UInt8} (h : Received filename name left) :
    filename ≠ [] := by
  rintro rfl
  exact h.ne_nil (List.append_eq_nil_iff.mp (List.prefix_nil.mp h.front)).1

theorem reports_concat (filename : List UInt8) (pieces : List (List UInt8)) (p : List UInt8) :
    reports filename (pieces ++ [p]) = reports filename pieces ++ [report filename p] := by
  simp [reports]

/-- One more piece has been received. -/
theorem Printed.concat {pieces : List (List UInt8)} {c : Stream} {k : Nat}
    (h : Printed T files name pieces c.inFlight) (hk : c.delivers DEFAULT_BUFLEN (k + 1) = true) :
    Printed T files name (pieces ++ [(c.recv (k + 1)).1]) (c.recv (k + 1)).2.inFlight where
  ne_nil p hp := by
    rcases List.mem_append.mp hp with hp | hp
    · exact h.ne_nil p hp
    · rw [List.mem_singleton.mp hp]
      exact Stream.recv_ne_nil hk
  taken := by
    rw [List.flatten_append, List.flatten_singleton, List.append_assoc, Stream.recv_append]
    exact h.taken

theorem Phase.clientSend (h : Phase T files filename s) {n : Nat} (hc : s.client = .send)
    (hn : takes s.filename.length (some n) = true) :
    Phase T files filename (s.clientSend (some n)) := by
  cases h with
  | typing => exact .asked (taken_take hn)
  | _ => cases hc

theorem Phase.clientRecv (h : Phase T files filename s) {k : Nat} (hc : s.client = .recv)
    (hk : s.toClient.delivers DEFAULT_BUFLEN k = true) :
    Phase T files filename (s.clientRecv k) := by
  cases h with
  | asked hsent => cases hk
  | answering hname => cases hk
  | answered hname hprinted =>
      cases k with
      | zero => cases (Stream.delivers_zero.mp hk).2
      | succ k =>
          have := Phase.answered hname (hprinted.concat hk)
          rw [reports_concat] at this
          exact this
  | ended hname hprinted =>
      cases k with
      | zero =>
          obtain ⟨rfl, -⟩ := Stream.delivers_zero.mp hk
          exact .closed hname hprinted
      | succ k =>
          have := Phase.ended hname (hprinted.concat hk)
          rw [reports_concat] at this
          exact this
  | _ => cases hc

theorem Phase.serverRecv (h : Phase T files filename s) {k : Nat} (hs : s.server = .recv)
    (hk : s.toServer.delivers DEFAULT_BUFLEN k = true) :
    Phase T files filename (s.serverRecv files k) := by
  cases h with
  | typing =>
      cases k with
      | zero => cases (Stream.delivers_zero.mp hk).2
      | succ k => cases hk
  | @asked sent hsent =>
      cases k with
      | zero => cases (Stream.delivers_zero.mp hk).2
      | succ k =>
          refine .answering ⟨Stream.recv_ne_nil hk, ?_⟩
          have hjoin : sent.take (k + 1) ++ sent.drop (k + 1) = sent := List.take_append_drop _ _
          exact hjoin.symm ▸ hsent.1
  | _ => cases hs

theorem Phase.serverSend (h : Phase T files filename s) {text : List UInt8} {n : Nat}
    (hs : s.server = .send text) (hn : T text (text.take n)) :
    Phase T files filename (s.serverSend text (some n)) := by
  cases h with
  | @answering name left hname =>
      cases hs
      -- nothing has been printed yet
      have hprinted : Printed T files name [] ((sendbuf (fileSize files name)).take n) :=
        ⟨List.forall_mem_nil _, hn⟩
      exact .answered hname hprinted
  | _ => cases hs

theorem Phase.step (h : Phase T files filename s) {c : Call} (he : s.enabled c = true)
    (hc : c.Succeeds)
    (hT : ∀ n, c = .serverSend (some n) → T s.pending (s.pending.take n))
    (hs : s.step files c = some s') : Phase T files filename s' := by
  cases c with
  | clientSend r =>
      cases hs
      simp only [enabled, Bool.and_eq_true, decide_eq_true_eq] at he
      obtain ⟨n, rfl⟩ := Option.ne_none_iff_exists'.mp hc
      exact h.clientSend he.1 he.2
  | clientRecv k =>
      cases hs
      simp only [enabled, Bool.and_eq_true, decide_eq_true_eq] at he
      exact h.clientRecv he.1 he.2
  | clientRecvError => cases hc
  | clientShutdown error =>
      cases hc
      cases hs
      cases h with
      | closed hname hprinted => exact .returned hname hprinted
      | _ => simp [enabled] at he
  | serverRecv k =>
      cases hs
      simp only [enabled, Bool.and_eq_true, decide_eq_true_eq] at he
      exact h.serverRecv he.1 he.2
  | serverRecvError => cases hc
  | serverSend r =>
      obtain ⟨n, rfl⟩ := Option.ne_none_iff_exists'.mp hc
      simp only [Session.step] at hs
      split at hs
      · rename_i text hsend
        cases hs
        have hn := hT n rfl
        rw [pending, hsend] at hn
        exact h.serverSend hsend hn
      · cases hs
  | serverShutdown error =>
      cases hc
      cases hs
      cases h with
      | answered hname hprinted => exact .ended hname hprinted
      | _ => simp [enabled] at he

theorem phase_of_reachable {G : Session → Call → Prop}
    (hG : ∀ s c, G s c →
      c.Succeeds ∧ ∀ n, c = .serverSend (some n) → T s.pending (s.pending.take n))
    (h : (system files line).Reachable G s) : Phase T files (getFilename line) s := by
  induction h with
  | init hi =>
      rw [hi]
      exact .typing
  | step _ he hg hs ih =>
      obtain ⟨hc, hT⟩ := hG _ _ hg
      exact ih.step he hc hT hs

/-- The server's `send` takes the whole answer, unless it fails. -/
def AnswersWhole (s : Session) : Call → Prop
  | .serverSend (some n) => n = s.pending.length
  | _ => True

theorem phase_of_answersWhole
    (h : (system files line).Reachable (fun s c ↦ c.Succeeds ∧ s.AnswersWhole c) s) :
    Phase (fun text sent ↦ sent = text) files (getFilename line) s := by
  refine phase_of_reachable (fun s c hg ↦ ⟨hg.1, ?_⟩) h
  rintro n rfl
  have hn : n = s.pending.length := hg.2
  rw [hn, List.take_length]

/-- **When the connection is closed, the client has printed a whole answer**, if
every call succeeds and the server's `send` takes all its bytes: to a name that is
the front of the one that was typed, and in as many lines as it has arrived in
pieces, none of which is empty. -/
theorem printed_of_closed
    (h : (system files line).Reachable (fun s c ↦ c.Succeeds ∧ s.AnswersWhole c) s)
    (hc : .connectionClosed ∈ s.clientConsole) :
    ∃ name pieces, name ≠ [] ∧ name <+: getFilename line ∧ (∀ p ∈ pieces, p ≠ []) ∧
      s.clientConsole = reports (getFilename line) pieces ++ [.connectionClosed] ∧
        pieces.flatten = sendbuf (fileSize files name) := by
  have hreports {pieces : List (List UInt8)} :
      .connectionClosed ∉ reports (getFilename line) pieces := by
    intro hmem
    obtain ⟨p, -, hp⟩ := List.mem_map.mp hmem
    rw [report] at hp
    split at hp <;> cases hp
  have hfront {name left : List UInt8} (hname : Received (getFilename line) name left) :
      name <+: getFilename line := (List.prefix_append name left).trans hname.front
  cases phase_of_answersWhole h with
  | typing => cases hc
  | asked => cases hc
  | answering hname => cases hc
  | answered hname hprinted => exact absurd hc hreports
  | ended hname hprinted => exact absurd hc hreports
  | closed hname hprinted =>
      exact ⟨_, _, hname.ne_nil, hfront hname, hprinted.ne_nil, rfl, by simpa using hprinted.taken⟩
  | returned hname hprinted =>
      exact ⟨_, _, hname.ne_nil, hfront hname, hprinted.ne_nil, rfl, by simpa using hprinted.taken⟩

instance (c : Call) : Decidable c.Succeeds :=
  match c with
  | .clientSend r | .serverSend r => inferInstanceAs (Decidable (r ≠ none))
  | .clientShutdown error | .serverShutdown error => inferInstanceAs (Decidable (error = false))
  | .clientRecvError | .serverRecvError => inferInstanceAs (Decidable False)
  | .clientRecv _ | .serverRecv _ => inferInstanceAs (Decidable True)

instance (s : Session) (c : Call) : Decidable (s.AnswersWhole c) :=
  match c with
  | .serverSend (some n) => inferInstanceAs (Decidable (n = s.pending.length))
  | .serverSend none | .clientSend _ | .clientRecv _ | .clientRecvError | .clientShutdown _
  | .serverRecv _ | .serverRecvError | .serverShutdown _ => inferInstanceAs (Decidable True)

/-- The client sends a part of the name only; the answer to it arrives in two
pieces, and is printed as two sizes. -/
theorem printed_pieces : ∃ s,
    (system fileA [98, 97]).Reachable (fun s c ↦ c.Succeeds ∧ s.AnswersWhole c) s ∧
      s.clientConsole = [.size [98, 97] [45], .size [98, 97] [49], .connectionClosed] ∧
        ∃ name pieces, name ≠ [] ∧ name <+: getFilename [98, 97] ∧ (∀ p ∈ pieces, p ≠ []) ∧
          s.clientConsole = reports (getFilename [98, 97]) pieces ++ [.connectionClosed] ∧
            pieces.flatten = sendbuf (fileSize fileA name) := by
  obtain ⟨s, hs, hp⟩ : ∃ s,
      (system fileA [98, 97]).Reachable (fun s c ↦ c.Succeeds ∧ s.AnswersWhole c) s ∧
        s.clientConsole = [.size [98, 97] [45], .size [98, 97] [49], .connectionClosed] :=
    System.reachable_of_exec (g := fun s c ↦ decide (c.Succeeds ∧ s.AnswersWhole c))
      (fun _ _ ↦ of_decide_eq_true) (.init rfl)
      [.clientSend (some 1), .serverRecv 1, .serverSend (some 2), .clientRecv 1, .clientRecv 1,
        .serverShutdown false, .clientRecv 0] (by decide)
  exact ⟨s, hs, hp, printed_of_closed hs (by simp [hp])⟩

/-- No call can return, unless it fails. -/
def Stuck (s : Session) : Prop := ∀ c : Call, c.Succeeds → s.enabled c = false

theorem not_stuck {c : Call} (hc : c.Succeeds) (he : s.enabled c = true) : ¬ s.Stuck :=
  fun h ↦ Bool.false_ne_true ((h c hc).symm.trans he)

/-- A run in which every call succeeds ends when both programs have returned, and
not before, unless the name is empty: then they wait for each other. -/
theorem stuck_iff (h : (system files line).Reachable (fun _ c ↦ c.Succeeds) s) :
    s.Stuck ↔ (s.client = .returned 0 ∧ s.server = .returned 0) ∨
      (getFilename line = [] ∧ s.client = .recv ∧ s.server = .recv) := by
  have hphase : Phase (fun _ _ ↦ True) files (getFilename line) s :=
    phase_of_reachable (fun _ _ hc ↦ ⟨hc, fun _ _ ↦ trivial⟩) h
  cases hphase with
  | typing =>
      exact iff_of_false
        (not_stuck (c := .clientSend (some (getFilename line).length)) (Option.some_ne_none _)
          (by simp [enabled, takes]))
        (by simp)
  | @asked sent hsent =>
      by_cases hnil : getFilename line = []
      · obtain rfl : sent = [] := List.prefix_nil.mp (hnil ▸ hsent.1)
        refine iff_of_true (fun c hc ↦ ?_) (.inr ⟨hnil, rfl, rfl⟩)
        cases c <;> simp [enabled, Stream.delivers, Call.Succeeds] at hc ⊢
      · have hne : sent ≠ [] := fun hsent' ↦ hnil (hsent.2 hsent')
        obtain ⟨k, hk⟩ := Stream.exists_delivers (c := ⟨sent, false⟩)
          (n := DEFAULT_BUFLEN) (by decide) (.inl hne)
        exact iff_of_false (not_stuck (c := .serverRecv k) trivial (by simp [enabled, hk]))
          (by simp [hnil])
  | @answering name left hname =>
      exact iff_of_false
        (not_stuck (c := .serverSend (some (sendbuf (fileSize files name)).length))
          (Option.some_ne_none _) (by simp [enabled, takes]))
        (by simp [hname.filename_ne_nil])
  | answered hname hprinted =>
      exact iff_of_false (not_stuck (c := .serverShutdown false) rfl rfl)
        (by simp [hname.filename_ne_nil])
  | @ended name left inFlight pieces hname hprinted =>
      obtain ⟨k, hk⟩ := Stream.exists_delivers (c := ⟨inFlight, true⟩) (n := DEFAULT_BUFLEN)
        (by decide) (.inr rfl)
      exact iff_of_false (not_stuck (c := .clientRecv k) trivial (by simp [enabled, hk]))
        (by simp [hname.filename_ne_nil])
  | closed hname hprinted =>
      exact iff_of_false (not_stuck (c := .clientShutdown false) rfl rfl)
        (by simp [hname.filename_ne_nil])
  | returned hname hprinted =>
      refine iff_of_true (fun c hc ↦ ?_) (.inl ⟨rfl, rfl⟩)
      cases c <;> simp [enabled, Call.Succeeds] at hc ⊢

/-! ## How long a run can be -/

/-- The calls that are ahead of the client, at most, and the bytes it will send. -/
def clientAhead (s : Session) : Nat :=
  match s.client with
  | .send => s.filename.length + 3
  | .recv => 2
  | .shutdown => 1
  | .returned _ => 0

/-- The same for the server; an answer has eleven bytes at most. -/
def serverAhead (s : Session) : Nat :=
  match s.server with
  | .recv => 14
  | .send text => text.length + 2
  | .shutdown => 1
  | .returned _ => 0

/-- What is ahead of a session: every call takes something of it. -/
def ahead (s : Session) : Nat :=
  s.clientAhead + s.serverAhead + s.toServer.inFlight.length + s.toClient.inFlight.length

theorem ahead_clientRecv {k : Nat} (hc : s.client = .recv)
    (hk : s.toClient.delivers DEFAULT_BUFLEN k = true) : (s.clientRecv k).ahead < s.ahead := by
  cases k with
  | zero => simp [ahead, clientAhead, serverAhead, clientRecv, clientPrint, hc]
  | succ k =>
      have hlen := (Stream.length_recv hk).2
      simp [ahead, clientAhead, serverAhead, clientRecv, clientPrint, hc]
      omega

theorem ahead_serverRecv {k : Nat} (hs : s.server = .recv)
    (hk : s.toServer.delivers DEFAULT_BUFLEN k = true) :
    (s.serverRecv files k).ahead < s.ahead := by
  cases k with
  | zero => simp [ahead, clientAhead, serverAhead, serverRecv, serverPrint, hs]
  | succ k =>
      have hlen := (Stream.length_recv hk).2
      have htext := length_sendbuf_le files (s.toServer.recv (k + 1)).1
      simp [ahead, clientAhead, serverAhead, serverRecv, serverPrint, hs]
      omega

theorem ahead_step {c : Call} (he : s.enabled c = true) (hs : s.step files c = some s') :
    s'.ahead < s.ahead := by
  cases c with
  | clientSend r =>
      simp only [enabled, Bool.and_eq_true, decide_eq_true_eq] at he
      obtain ⟨hc, -⟩ := he
      cases hs
      cases r with
      | none => simp [ahead, clientAhead, serverAhead, clientSend, clientReturn, clientPrint, hc]
      | some n =>
          simp [ahead, clientAhead, serverAhead, clientSend, hc]
          omega
  | clientRecv k =>
      cases hs
      simp only [enabled, Bool.and_eq_true, decide_eq_true_eq] at he
      exact ahead_clientRecv he.1 he.2
  | clientRecvError =>
      have hc : s.client = .recv := by simpa [enabled] using he
      cases hs
      simp [ahead, clientAhead, serverAhead, clientRecvError, clientPrint, hc]
  | clientShutdown error =>
      have hc : s.client = .shutdown := by simpa [enabled] using he
      cases hs
      cases error <;>
        simp [ahead, clientAhead, serverAhead, clientShutdown, clientReturn, clientPrint, hc]
  | serverRecv k =>
      cases hs
      simp only [enabled, Bool.and_eq_true, decide_eq_true_eq] at he
      exact ahead_serverRecv he.1 he.2
  | serverRecvError =>
      have hs' : s.server = .recv := by simpa [enabled] using he
      cases hs
      simp [ahead, clientAhead, serverAhead, serverRecvError, serverReturn, serverPrint, hs']
  | serverSend r =>
      simp only [Session.step] at hs
      split at hs
      · rename_i text hsend
        cases hs
        cases r with
        | none =>
            simp [ahead, clientAhead, serverAhead, serverSend, serverReturn, serverPrint, hsend]
        | some n =>
            simp [ahead, clientAhead, serverAhead, serverSend, serverPrint, hsend]
            omega
      · cases hs
  | serverShutdown error =>
      have hs' : s.server = .shutdown := by simpa [enabled] using he
      cases hs
      cases error <;>
        simp [ahead, clientAhead, serverAhead, serverShutdown, serverReturn, serverPrint, hs']

/-- Every run is finite, whatever fails: there are at most 17 calls more than the
name has bytes. -/
theorem length_run_le {g : Session → Call → Bool} {cs : List Call}
    (h : (system files line).exec g (start line) cs = some s) :
    cs.length ≤ (getFilename line).length + 17 :=
  System.length_exec_le (I := fun _ ↦ True) (m := ahead) (fun _ _ _ _ _ _ ↦ trivial)
    (fun _ _ _ _ he _ hs ↦ ahead_step he hs) trivial h

/-- **Every run ends.**  It is finite, whatever fails, and if nothing fails, it
ends with both programs having returned, unless the name is empty: then they wait
for each other. -/
theorem run_ends (files : Files) (line : List UInt8) :
    (∀ cs s, (system files line).exec (fun _ _ ↦ true) (start line) cs = some s →
      cs.length ≤ (getFilename line).length + 17) ∧
    ∀ s, (system files line).Reachable (fun _ c ↦ c.Succeeds) s →
      (s.Stuck ↔ (s.client = .returned 0 ∧ s.server = .returned 0) ∨
        (getFilename line = [] ∧ s.client = .recv ∧ s.server = .recv)) :=
  ⟨fun _ _ ↦ length_run_le, fun _ ↦ stuck_iff⟩

/-! ## Runs in which messages stay whole -/

/-- A receive takes all that is under way, and a `send` all that it is given, unless
it fails. -/
def Whole (s : Session) : Call → Prop
  | .clientSend (some n) => n = s.filename.length
  | .serverSend (some n) => n = s.pending.length
  | .clientRecv k => k = s.toClient.inFlight.length
  | .serverRecv k => k = s.toServer.inFlight.length
  | _ => True

/-- The lines that the client has printed for an answer. -/
def answers (s : Session) : List Line := s.clientConsole.filter (·.text ≠ [])

/-- The answer to the name that was typed. -/
def wholeAnswer (files : Files) (s : Session) : List UInt8 := sendbuf (fileSize files s.filename)

/-- The answer is on its way, or has been printed. -/
structure WholeAnswers (files : Files) (s : Session) : Prop where
  unsent : s.client = .send → s.toServer.inFlight = []
  waiting : s.server = .recv → s.answers = [] ∧ s.toClient.inFlight = [] ∧
    (s.toServer.inFlight = [] ∨ s.toServer.inFlight = s.filename)
  sending : ∀ text, s.server = .send text → text = s.wholeAnswer files ∧ s.answers = [] ∧
    s.toClient.inFlight = []
  printed : s.answers = [] ∧
      (s.toClient.inFlight = [] ∨ s.toClient.inFlight = s.wholeAnswer files) ∨
    s.answers = [report s.filename (s.wholeAnswer files)] ∧ s.toClient.inFlight = []

theorem wholeAnswers_start (line : List UInt8) : WholeAnswers files (start line) :=
  ⟨fun _ ↦ rfl, fun _ ↦ ⟨rfl, rfl, .inl rfl⟩, nofun, .inl ⟨rfl, .inl rfl⟩⟩

namespace WholeAnswers

/-- A call of the client that prints no answer. -/
theorem of_client (h : WholeAnswers files s) (ls : List Line)
    (hls : ls.filter (·.text ≠ []) = []) (hprint : s'.clientConsole = s.clientConsole ++ ls)
    (hf : s'.filename = s.filename) (hc : s'.toClient = s.toClient) (hs : s'.server = s.server)
    (ht : s'.toServer.inFlight = s.toServer.inFlight) (hsent : s'.client ≠ .send) :
    WholeAnswers files s' := by
  have hanswers : s'.answers = s.answers := by
    rw [answers, hprint, List.filter_append, hls, List.append_nil, answers]
  have hwhole : s'.wholeAnswer files = s.wholeAnswer files := by rw [wholeAnswer, hf, wholeAnswer]
  refine ⟨fun hc ↦ absurd hc hsent, ?_, ?_, ?_⟩
  · rw [hs, hanswers, hc, ht, hf]
    exact h.waiting
  · rw [hs, hanswers, hc, hwhole]
    exact h.sending
  · rw [hanswers, hc, hf, hwhole]
    exact h.printed

/-- A call of the server after which it has nothing to send. -/
theorem of_server (h : WholeAnswers files s) (hf : s'.filename = s.filename)
    (hprint : s'.clientConsole = s.clientConsole) (hclient : s'.client = s.client)
    (ht : s'.toServer = s.toServer) (hrecv : s'.server ≠ .recv)
    (hsend : ∀ text, s'.server ≠ .send text)
    (hc : s'.toClient.inFlight = s.toClient.inFlight ∨
      s.answers = [] ∧ s'.toClient.inFlight = s.wholeAnswer files) : WholeAnswers files s' := by
  have hanswers : s'.answers = s.answers := by rw [answers, hprint, answers]
  have hwhole : s'.wholeAnswer files = s.wholeAnswer files := by rw [wholeAnswer, hf, wholeAnswer]
  refine ⟨?_, fun hs ↦ absurd hs hrecv, fun text hs ↦ absurd hs (hsend text), ?_⟩
  · rw [hclient, ht]
    exact h.unsent
  · rw [hanswers, hwhole, hf]
    rcases hc with hc | ⟨hnone, hc⟩
    · rw [hc]
      exact h.printed
    · exact .inl ⟨hnone, .inr hc⟩

theorem clientRecv (h : WholeAnswers files s) (hc : s.client = .recv) :
    WholeAnswers files (s.clientRecv s.toClient.inFlight.length) := by
  by_cases hnil : s.toClient.inFlight = []
  · rw [hnil]
    exact h.of_client [.connectionClosed] rfl rfl rfl rfl rfl rfl nofun
  · have hpos : s.toClient.inFlight.length > 0 := List.length_pos_iff.mpr hnil
    obtain ⟨hnone, hflight⟩ : s.answers = [] ∧ s.toClient.inFlight = s.wholeAnswer files := by
      rcases h.printed with ⟨hnone, hflight⟩ | ⟨-, hflight⟩
      · exact ⟨hnone, hflight.resolve_left hnil⟩
      · exact absurd hflight hnil
    simp only [Session.clientRecv, Stream.recv_length, if_pos hpos]
    refine ⟨fun hsend ↦ ?_, fun hs ↦ absurd (h.waiting hs).2.1 hnil,
      fun text hs ↦ absurd (h.sending text hs).2.2 hnil, .inr ⟨?_, rfl⟩⟩
    · cases hc.symm.trans hsend
    · change (s.clientConsole ++ [report s.filename s.toClient.inFlight]).filter _ = _
      have hanswer : (report s.filename s.toClient.inFlight).text ≠ [] := by
        rw [text_report]
        exact hnil
      have hold : s.clientConsole.filter (·.text ≠ []) = [] := hnone
      rw [List.filter_append, hold, List.nil_append, List.filter_singleton,
        decide_eq_true hanswer, hflight]
      rfl

theorem serverRecv (h : WholeAnswers files s) (hs : s.server = .recv) :
    WholeAnswers files (s.serverRecv files s.toServer.inFlight.length) := by
  obtain ⟨hnone, hflight, hname⟩ := h.waiting hs
  by_cases hnil : s.toServer.inFlight = []
  · rw [hnil]
    exact h.of_server rfl rfl rfl rfl nofun nofun (.inl rfl)
  · have hpos : s.toServer.inFlight.length > 0 := List.length_pos_iff.mpr hnil
    simp only [Session.serverRecv, Stream.recv_length, if_pos hpos]
    rw [hname.resolve_left hnil]
    refine ⟨fun _ ↦ rfl, nofun, fun text hs ↦ ?_, .inl ⟨hnone, .inl hflight⟩⟩
    cases hs
    exact ⟨rfl, hnone, hflight⟩

theorem step (h : WholeAnswers files s) {c : Call} (he : s.enabled c = true) (hw : s.Whole c)
    (hs : s.step files c = some s') : WholeAnswers files s' := by
  cases c with
  | clientSend r =>
      simp only [enabled, Bool.and_eq_true, decide_eq_true_eq] at he
      cases hs
      cases r with
      | none => exact h.of_client [.sendFailed] rfl rfl rfl rfl rfl rfl nofun
      | some n =>
          cases hw
          refine ⟨nofun, fun hs ↦ ?_, h.sending, h.printed⟩
          obtain ⟨hnone, hflight, -⟩ := h.waiting hs
          refine ⟨hnone, hflight, .inr ?_⟩
          change s.toServer.inFlight ++ s.filename.take s.filename.length = s.filename
          rw [h.unsent he.1, List.nil_append, List.take_length]
  | clientRecv k =>
      cases hw
      cases hs
      simp only [enabled, Bool.and_eq_true, decide_eq_true_eq] at he
      exact h.clientRecv he.1
  | clientRecvError =>
      cases hs
      exact h.of_client [.recvFailed] rfl rfl rfl rfl rfl rfl nofun
  | clientShutdown error =>
      cases hs
      cases error with
      | true => exact h.of_client [.shutdownFailed] rfl rfl rfl rfl rfl rfl nofun
      | false => exact h.of_client [] rfl (List.append_nil _).symm rfl rfl rfl rfl nofun
  | serverRecv k =>
      cases hw
      cases hs
      simp only [enabled, Bool.and_eq_true, decide_eq_true_eq] at he
      exact h.serverRecv he.1
  | serverRecvError =>
      cases hs
      exact h.of_server rfl rfl rfl rfl nofun nofun (.inl rfl)
  | serverSend r =>
      simp only [Session.step] at hs
      split at hs
      · rename_i text hsend
        cases hs
        obtain ⟨rfl, hnone, hflight⟩ := h.sending text hsend
        cases r with
        | none => exact h.of_server rfl rfl rfl rfl nofun nofun (.inl rfl)
        | some n =>
            have hn : n = (s.wholeAnswer files).length := by
              have hn : n = s.pending.length := hw
              rw [hn, pending, hsend]
            refine h.of_server rfl rfl rfl rfl nofun nofun (.inr ⟨hnone, ?_⟩)
            change s.toClient.inFlight ++ (s.wholeAnswer files).take n = _
            rw [hflight, List.nil_append, hn, List.take_length]
      · cases hs
  | serverShutdown error =>
      cases hs
      cases error <;> exact h.of_server rfl rfl rfl rfl nofun nofun (.inl rfl)

end WholeAnswers

theorem wholeAnswers_of_whole (h : (system files line).Reachable Whole s) :
    WholeAnswers files s := by
  induction h with
  | init hi =>
      rw [hi]
      exact wholeAnswers_start line
  | step _ he hw hs ih => exact ih.step he hw hs

/-- **If messages stay whole, there is one answer at most, and it is right** exactly
if the file is shorter than 2 GiB or does not exist; this holds in runs in which
calls fail as well. -/
theorem answers_of_whole (h : (system files line).Reachable Whole s) :
    s.answers.length ≤ 1 ∧ ∀ l ∈ s.answers, (Truthful files (getFilename line) l ↔
      ∀ length, files (getFilename line) = some length → length < 2 ^ 31) := by
  have hprinted := (wholeAnswers_of_whole h).printed
  rw [wholeAnswer, filename_eq h] at hprinted
  rcases hprinted with ⟨hnone, -⟩ | ⟨hone, -⟩
  · rw [hnone]
    exact ⟨Nat.zero_le _, nofun⟩
  · rw [hone]
    refine ⟨Nat.le_refl _, fun l hl ↦ ?_⟩
    rw [List.mem_singleton.mp hl]
    exact truthful_report_iff (getFilename_spec line).1

instance (s : Session) (c : Call) : Decidable (s.Whole c) :=
  match c with
  | .clientSend (some n) => inferInstanceAs (Decidable (n = s.filename.length))
  | .serverSend (some n) => inferInstanceAs (Decidable (n = s.pending.length))
  | .clientRecv k => inferInstanceAs (Decidable (k = s.toClient.inFlight.length))
  | .serverRecv k => inferInstanceAs (Decidable (k = s.toServer.inFlight.length))
  | .clientSend none | .serverSend none | .clientRecvError | .clientShutdown _ | .serverRecvError
  | .serverShutdown _ => inferInstanceAs (Decidable True)

/-- A file of 4 GiB less one byte: the client is told that there is none. -/
theorem answers_of_whole_huge : ∃ s,
    (system (fun _ ↦ some (2 ^ 32 - 1)) [97]).Reachable Whole s ∧ s.answers = [.noFile [97]] ∧
      s.answers.length ≤ 1 ∧ ∀ l ∈ s.answers,
        (Truthful (fun _ ↦ some (2 ^ 32 - 1)) (getFilename [97]) l ↔
          ∀ length, some (2 ^ 32 - 1) = some length → length < 2 ^ 31) := by
  obtain ⟨s, hs, hp⟩ : ∃ s, (system (fun _ ↦ some (2 ^ 32 - 1)) [97]).Reachable Whole s ∧
      s.answers = [.noFile [97]] :=
    System.reachable_of_exec (g := fun s c ↦ decide (s.Whole c)) (fun _ _ ↦ of_decide_eq_true)
      (.init rfl) [.clientSend (some 1), .serverRecv 1, .serverSend (some 2), .clientRecv 2]
      (by decide)
  exact ⟨s, hs, hp, answers_of_whole hs⟩

end Session

end CppExamples.WinSock.FileSize
