import SbusRemote.Core.ByteLine
import SbusRemote.Core.Run
import SbusRemote.Serial.Port

/-!
# `serial.cpp`: receiving with `epoll`

`main` opens the port, waits for it to become readable, reads up to 256 bytes at a time and prints
each piece.  Bytes reach the driver's queue at any moment, also between two reads.

* `Receives` — one step: `main` up to its loop, bytes that arrive, an event of the port, or the end
  of the loop.
* `received_in_order` — what was printed and what still waits are the bytes that arrived since the
  port was flushed, each once and in order, and no piece is empty or longer than the buffer.
* `main_descriptors` — which descriptors `main` leaves open, on every way out.
-/

namespace SbusRemote.Epoll

open Descriptor Lts ByteLine

/-- Where `main` is: before `openPort`, in its loop, or at an end with the value it returns. -/
inductive Place where
  | start
  | loop (epollFd : ℤ)
  | done (ret : ℤ)
  deriving DecidableEq, Repr

/-- `main` with its driver.  The log of the port also holds the calls that opened or closed the
`epoll` descriptor. -/
structure Receiver where
  serialPort : SerialPort
  place : Place
  receiveBuffer : Fin 256 → UInt8
  /-- The bytes the driver holds for the port. -/
  queue : List UInt8
  /-- The pieces written to `std::cout`, and the lines written to `std::cerr`. -/
  cout : List (List UInt8)
  cerr : List String

/-- What happens next.  `starts` has what the system calls of `main` answer before its loop, `event`
what `read` returns. -/
inductive Input where
  | starts (a : Answers) (epollCreate epollCtl : ℤ)
  | arrives (bytes : List UInt8)
  | event (bytesRead : ℤ)
  | fails

/-- A call that opens or closes a descriptor next to the port's. -/
def logged (e : Event ℤ) (p : SerialPort) : SerialPort := { p with log := p.log ++ [e] }

/-- `openPort` gets as far as `tcflush`. -/
def flushes (a : Answers) : Prop := a.opened ≠ -1 ∧ a.isatty ≠ 0 ∧ a.tcgetattr = 0

instance (a : Answers) : Decidable (flushes a) := inferInstanceAs (Decidable (_ ∧ _))

/-- `main` between `openPort` and its loop. -/
def Receiver.listen (epollCreate epollCtl : ℤ) (s : Receiver) : Receiver :=
  if epollCreate = -1 then
    { s with place := .done (-1), cerr := s.cerr ++ ["无法创建 epoll 文件描述符"] }
  else
    let s := { s with serialPort := logged (.opened epollCreate) s.serialPort }
    if epollCtl = -1 then
      { s with place := .done (-1), cerr := s.cerr ++ ["无法添加串口文件描述符到 epoll"] }
    else { s with place := .loop epollCreate }

/-- `main` up to its loop. -/
def Receiver.start (a : Answers) (epollCreate epollCtl : ℤ) (s : Receiver) : Receiver :=
  let opened := openPort a s.serialPort
  let s := { s with
    serialPort := opened.2
    queue := if flushes a then [] else s.queue }
  match opened.1 with
  | .error text => { s with place := .done (-1), cerr := s.cerr ++ [text] }
  | .ok () => s.listen epollCreate epollCtl

/-- An event of the port: `readData`, and the output of what it has read. -/
def Receiver.handle (bytesRead : ℤ) (s : Receiver) : Receiver :=
  let s := { s with
    receiveBuffer := fill s.receiveBuffer (s.queue.take bytesRead.toNat)
    queue := s.queue.drop bytesRead.toNat
    cerr := if bytesRead = -1 then s.cerr ++ ["读取串口数据时发生错误"] else s.cerr }
  if 0 < bytesRead then
    { s with cout := s.cout ++ [(List.ofFn s.receiveBuffer).take bytesRead.toNat] }
  else s

/-- `epoll_wait` failed: out of the loop, to the end. -/
def Receiver.stop (epollFd : ℤ) (s : Receiver) : Receiver :=
  { s with
    place := .done 0
    serialPort := closePort (logged (.closed epollFd) s.serialPort)
    cerr := s.cerr ++ ["epoll_wait 错误"] }

/-- `read` fails, or returns as many bytes as there are and as fit. -/
def Readable (queue : List UInt8) (bytesRead : ℤ) : Prop :=
  bytesRead = -1 ∨ (0 ≤ bytesRead ∧ bytesRead ≤ 256 ∧ bytesRead ≤ queue.length)

instance (queue : List UInt8) (bytesRead : ℤ) : Decidable (Readable queue bytesRead) :=
  inferInstanceAs (Decidable (_ ∨ _))

/-- One step. -/
inductive Receives : Receiver → Input → Receiver → Prop
  | starts {s : Receiver} {a : Answers} {epollCreate epollCtl : ℤ} : s.place = .start →
      (epollCreate ≠ -1 → epollCreate ∉ openAfter (openPort a s.serialPort).2.log) →
      Receives s (.starts a epollCreate epollCtl) (s.start a epollCreate epollCtl)
  | arrives {s : Receiver} (bytes : List UInt8) :
      Receives s (.arrives bytes) { s with queue := s.queue ++ bytes }
  | event {s : Receiver} {epollFd bytesRead : ℤ} : s.place = .loop epollFd →
      Readable s.queue bytesRead → Receives s (.event bytesRead) (s.handle bytesRead)
  | fails {s : Receiver} {epollFd : ℤ} : s.place = .loop epollFd →
      Receives s .fails (s.stop epollFd)

/-- The program before its first step: `serial_fd` and the buffer are not set, and bytes may already
be waiting. -/
def Receiver.init (serialFd : ℤ) (buffer : Fin 256 → UInt8) (queue : List UInt8) : Receiver where
  serialPort := ⟨serialFd, []⟩
  place := .start
  receiveBuffer := buffer
  queue := queue
  cout := []
  cerr := []

/-! ## What is printed -/

/-- The bytes that arrived, forgetting those that `tcflush` discards. -/
def arrived (bytes : List UInt8) : Input → List UInt8
  | .starts a _ _ => if flushes a then [] else bytes
  | .arrives bs => bytes ++ bs
  | _ => bytes

/-- Nothing is printed before the loop, and the pieces fit the buffer. -/
structure Printed (s : Receiver) : Prop where
  start : s.place = .start → s.cout = []
  pieces : ∀ piece ∈ s.cout, piece ≠ [] ∧ piece.length ≤ 256

/-- The buffer starts with what was read. -/
lemma take_fill {N n : ℕ} (buff : Fin N → UInt8) {queue : List UInt8} (h₁ : n ≤ N)
    (h₂ : n ≤ queue.length) : (List.ofFn (fill buff (queue.take n))).take n = queue.take n := by
  refine List.ext_getElem (by simp [h₁, h₂]) fun i hi hi' => ?_
  have hin : i < n := by
    rw [List.length_take] at hi'
    omega
  simp [fill, List.getD_eq_getElem?_getD, hin,
    List.getElem?_eq_getElem (hin.trans_le h₂)]

/-- An event prints what it takes from the queue. -/
lemma handle_printed {s : Receiver} {bytesRead : ℤ} (h : Readable s.queue bytesRead) :
    (s.handle bytesRead).queue = s.queue.drop bytesRead.toNat ∧
      ((s.handle bytesRead).cout = s.cout ∧ bytesRead.toNat = 0 ∨
        (s.handle bytesRead).cout = s.cout ++ [s.queue.take bytesRead.toNat] ∧
          s.queue.take bytesRead.toNat ≠ [] ∧ (s.queue.take bytesRead.toNat).length ≤ 256) := by
  rw [Receiver.handle]
  by_cases hpos : 0 < bytesRead
  · obtain ⟨-, htop, hlen⟩ := h.resolve_left (by omega)
    rw [if_pos hpos]
    refine ⟨rfl, .inr ⟨?_, ?_, ?_⟩⟩
    · rw [take_fill s.receiveBuffer (by omega) (by omega)]
    · rw [← List.length_pos_iff, List.length_take]
      omega
    · rw [List.length_take]
      omega
  · rw [if_neg hpos]
    exact ⟨rfl, .inl ⟨rfl, by omega⟩⟩

lemma start_frame (a : Answers) (epollCreate epollCtl : ℤ) (s : Receiver) :
    (s.start a epollCreate epollCtl).cout = s.cout ∧
      (s.start a epollCreate epollCtl).queue = (if flushes a then [] else s.queue) ∧
      (s.start a epollCreate epollCtl).place ≠ .start := by
  simp only [Receiver.start]
  split
  · simp
  · rw [Receiver.listen]
    split_ifs <;> simp

/-- **One step**: what was printed and what waits change by what arrives. -/
lemma Receives.printed {s t : Receiver} {i : Input} (h : Receives s i t) (hs : Printed s) :
    t.cout.flatten ++ t.queue = arrived (s.cout.flatten ++ s.queue) i ∧ Printed t := by
  cases h with
  | @starts a epollCreate epollCtl hplace _ =>
      obtain ⟨hcout, hqueue, hplace'⟩ := start_frame a epollCreate epollCtl s
      rw [hs.start hplace] at hcout ⊢
      rw [hcout, hqueue]
      exact ⟨rfl, fun _ => hcout, by simp [hcout]⟩
  | arrives bytes => exact ⟨(List.append_assoc ..).symm, hs.start, hs.pieces⟩
  | @event epollFd bytesRead hplace hread =>
      have hgoes : (s.handle bytesRead).place = .loop epollFd := by
        rw [← hplace, Receiver.handle]
        split_ifs <;> rfl
      have hstart : (s.handle bytesRead).place = .start → (s.handle bytesRead).cout = [] := by
        rw [hgoes]
        exact fun h => Place.noConfusion h
      obtain ⟨hqueue, ⟨hcout, hzero⟩ | ⟨hcout, hne, hlen⟩⟩ := handle_printed hread
      · rw [hqueue, hcout, hzero]
        refine ⟨rfl, ⟨hstart, ?_⟩⟩
        rw [hcout]
        exact hs.pieces
      · rw [hqueue, hcout]
        refine ⟨?_, ⟨hstart, ?_⟩⟩
        · rw [List.flatten_append, List.flatten_singleton, List.append_assoc,
            List.take_append_drop]
          rfl
        · rw [hcout, List.forall_mem_append, List.forall_mem_singleton]
          exact ⟨hs.pieces, hne, hlen⟩
  | fails hplace => exact ⟨rfl, fun h => Place.noConfusion h, hs.pieces⟩

/-- **Nothing is lost, repeated or reordered.**  In every run, whenever bytes arrive and however
many a `read` returns, the pieces printed and the bytes still waiting make up what has arrived since
the port was flushed; and no piece is empty or longer than the buffer. -/
theorem received_in_order (serialFd : ℤ) (buffer : Fin 256 → UInt8) (queue : List UInt8)
    (r : List (Input × Receiver)) (hr : IsRun Receives (.init serialFd buffer queue) r) :
    let t := final (Receiver.init serialFd buffer queue) r
    t.cout.flatten ++ t.queue = (r.map Prod.fst).foldl arrived queue ∧
      ∀ piece ∈ t.cout, piece ≠ [] ∧ piece.length ≤ 256 := by
  have hinit : Printed (.init serialFd buffer queue) := ⟨fun _ => rfl, List.forall_mem_nil _⟩
  have hattached := hr.attach (fun _ _ _ h hs => (h.printed hs).2) hinit
  refine ⟨?_, (hr.invariant (fun _ _ _ h hs => (h.printed hs).2) hinit).pieces⟩
  have hstep (s : Receiver) (i : Input) (t : Receiver) (h : Receives s i t ∧ Printed s) :
      t.cout.flatten ++ t.queue = arrived (s.cout.flatten ++ s.queue) i := (h.1.printed h.2).1
  exact hattached.final_eq_foldl (f := fun s => s.cout.flatten ++ s.queue) hstep

/-- Bytes wait before the port is opened; 300 arrive then, and two reads take them. -/
theorem received_in_order_two_reads :
    let s := Receiver.init 7 (fun _ => 0) [1, 2]
    let s₁ := s.start ⟨3, 1, 0, 0⟩ 4 0
    let s₂ := { s₁ with queue := s₁.queue ++ List.replicate 300 5 }
    let t := (s₂.handle 256).handle 44
    t.cout.flatten ++ t.queue = List.replicate 300 5 ∧
      ∀ piece ∈ t.cout, piece ≠ [] ∧ piece.length ≤ 256 := by
  intro s s₁ s₂ t
  have hrun : IsRun Receives s [(.starts ⟨3, 1, 0, 0⟩ 4 0, s₁), (.arrives (.replicate 300 5), s₂),
      (.event 256, s₂.handle 256), (.event 44, t)] :=
    ⟨.starts rfl (by decide), .arrives _, @Receives.event _ 4 _ rfl (by decide +kernel),
      @Receives.event _ 4 _ rfl (by decide +kernel), trivial⟩
  exact received_in_order 7 _ [1, 2] _ hrun

/-! ## What stays open -/

/-- The descriptors that `main` holds, from what the system calls have answered. -/
def held (table : Finset ℤ) : Input → Finset ℤ
  | .starts a epollCreate _ =>
      if a.opened = -1 then ∅
      else if a.isatty = 0 then {a.opened}
      else if a.tcgetattr ≠ 0 ∨ a.tcsetattr ≠ 0 then ∅
      else if epollCreate = -1 then {a.opened}
      else {a.opened, epollCreate}
  | .fails => ∅
  | _ => table

/-- The calls of `main` so far. -/
def Holds (s : Receiver) : Prop :=
  match s.place with
  | .start => s.serialPort.log = []
  | .loop epollFd => s.serialPort.serialFd ≠ -1 ∧ epollFd ≠ s.serialPort.serialFd ∧
      s.serialPort.log = [.opened s.serialPort.serialFd, .opened epollFd]
  | .done _ => ∀ fd, ¬ClosedTwice fd s.serialPort.log

/-- Only a descriptor with two calls of `close` is closed twice. -/
lemma two_le_count {fd : ℤ} {log : List (Event ℤ)} (h : ClosedTwice fd log) :
    2 ≤ log.count (.closed fd) := by
  obtain ⟨past, since, rest, rfl, -⟩ := h
  simp only [List.count_append, List.count_cons_self]
  omega

/-- With the port open, `main` gets a second descriptor, or ends. -/
lemma listen_holds {s : Receiver} {epollCreate epollCtl : ℤ}
    (hfd : s.serialPort.serialFd ≠ -1) (hlog : s.serialPort.log = [.opened s.serialPort.serialFd])
    (hfresh : epollCreate ≠ -1 → epollCreate ∉ openAfter s.serialPort.log) :
    openAfter (s.listen epollCreate epollCtl).serialPort.log
        = (if epollCreate = -1 then {s.serialPort.serialFd}
          else {s.serialPort.serialFd, epollCreate}) ∧
      Holds (s.listen epollCreate epollCtl) := by
  have hkept : Owned s.serialPort.log (some s.serialPort.serialFd) := by
    rw [hlog]
    exact Owned.nil.opened _
  rw [Receiver.listen]
  by_cases hcreate : epollCreate = -1
  · rw [if_pos hcreate, if_pos hcreate]
    exact ⟨hkept.openAfter_eq, hkept.not_closedTwice⟩
  · rw [hkept.openAfter_eq] at hfresh
    have hne : epollCreate ≠ s.serialPort.serialFd := by simpa using hfresh hcreate
    have hboth : openAfter (logged (.opened epollCreate) s.serialPort).log
        = {s.serialPort.serialFd, epollCreate} := by
      simp [logged, hlog, openAfter, record, Finset.pair_comm]
    rw [if_neg hcreate, if_neg hcreate]
    split_ifs with hctl
    · exact ⟨hboth, fun fd htwice => absurd (two_le_count htwice) (by simp [logged, hlog])⟩
    · exact ⟨hboth, hfd, hne, by simp [logged, hlog]⟩

/-- What `main` holds when its loop begins, or when it ends before. -/
lemma start_holds {s : Receiver} {a : Answers} {epollCreate epollCtl : ℤ}
    (hlog : s.serialPort.log = [])
    (hfresh : epollCreate ≠ -1 → epollCreate ∉ openAfter (openPort a s.serialPort).2.log) :
    openAfter (s.start a epollCreate epollCtl).serialPort.log
        = held ∅ (.starts a epollCreate epollCtl) ∧
      Holds (s.start a epollCreate epollCtl) := by
  have hkept : Owned [.opened a.opened] (some a.opened) := Owned.nil.opened a.opened
  have hshut : Owned ([.opened a.opened] ++ [.closed a.opened]) none := hkept.closed
  simp only [Receiver.start, held]
  by_cases hopened : a.opened = -1
  · simp only [openPort_failed hopened, if_pos hopened, hlog]
    exact ⟨rfl, Owned.nil.not_closedTwice⟩
  · have hopenPort := openPort_opened hopened s.serialPort
    rw [hlog, List.nil_append] at hopenPort
    rw [if_neg hopened]
    split_ifs at hopenPort with htty hget hset
    · rw [hopenPort, if_pos htty]
      exact ⟨hkept.openAfter_eq, hkept.not_closedTwice⟩
    · rw [hopenPort, if_neg htty, if_pos (Or.inl hget)]
      exact ⟨hshut.openAfter_eq, hshut.not_closedTwice⟩
    · rw [hopenPort, if_neg htty, if_pos (Or.inr hset)]
      exact ⟨hshut.openAfter_eq, hshut.not_closedTwice⟩
    · rw [hopenPort] at hfresh ⊢
      rw [if_neg htty, if_neg (not_or.mpr ⟨hget, hset⟩)]
      exact listen_holds hopened rfl hfresh

/-- **One step**: what is open follows the answers, and the calls stay in order. -/
lemma Receives.holds {s t : Receiver} {i : Input} (h : Receives s i t) (hs : Holds s) :
    openAfter t.serialPort.log = held (openAfter s.serialPort.log) i ∧ Holds t := by
  cases h with
  | starts hplace hfresh =>
      rw [Holds, hplace] at hs
      simpa [hs, held] using start_holds hs hfresh
  | arrives bytes => exact ⟨rfl, hs⟩
  | @event epollFd bytesRead hplace hread =>
      have hsame : (s.handle bytesRead).serialPort = s.serialPort ∧
          (s.handle bytesRead).place = s.place := by
        rw [Receiver.handle]
        split_ifs <;> exact ⟨rfl, rfl⟩
      rw [Holds, hsame.1, hsame.2]
      exact ⟨rfl, hs⟩
  | @fails epollFd hplace =>
      rw [Holds, hplace] at hs
      obtain ⟨hfd, hne, hlog⟩ := hs
      have hstop : (s.stop epollFd).serialPort.log = [.opened s.serialPort.serialFd,
          .opened epollFd, .closed epollFd, .closed s.serialPort.serialFd] := by
        rw [Receiver.stop, logged, closePort_held hfd, hlog]
        rfl
      change openAfter (s.stop epollFd).serialPort.log = ∅ ∧
        ∀ fd, ¬ClosedTwice fd (s.stop epollFd).serialPort.log
      rw [hstop]
      refine ⟨?_, fun fd htwice => ?_⟩
      · ext fd
        simp [openAfter, record]
        tauto
      · -- the two descriptors that are closed differ
        have hcount := two_le_count htwice
        by_cases hfd' : fd = epollFd
        · subst hfd'
          simp [hne.symm] at hcount
        · simp [List.count_cons, Ne.symm hfd'] at hcount
          split_ifs at hcount <;> omega

/-- **The descriptors of `main`.**  In every run none is closed twice, and those that are open are
the ones `held` computes from the answers: an early return leaves the port open after `isatty` and
`epoll_create1`, and both descriptors after `epoll_ctl`; the end of the loop leaves none. -/
theorem main_descriptors (serialFd : ℤ) (buffer : Fin 256 → UInt8) (queue : List UInt8)
    (r : List (Input × Receiver)) (hr : IsRun Receives (.init serialFd buffer queue) r) :
    let log := (final (Receiver.init serialFd buffer queue) r).serialPort.log
    openAfter log = (r.map Prod.fst).foldl held ∅ ∧ ∀ fd, ¬ClosedTwice fd log := by
  have hinit : Holds (.init serialFd buffer queue) := rfl
  have hattached := hr.attach (fun _ _ _ h hs => (h.holds hs).2) hinit
  refine ⟨?_, fun fd => ?_⟩
  · have hstep (s : Receiver) (i : Input) (t : Receiver) (h : Receives s i t ∧ Holds s) :
        openAfter t.serialPort.log = held (openAfter s.serialPort.log) i := (h.1.holds h.2).1
    exact hattached.final_eq_foldl (f := fun s => openAfter s.serialPort.log) hstep
  · have hend := hr.invariant (fun _ _ _ h hs => (h.holds hs).2) hinit
    generalize final (Receiver.init serialFd buffer queue) r = t at hend
    intro htwice
    have hcount := two_le_count htwice
    cases hplace : t.place with
    | start =>
        rw [Holds, hplace] at hend
        simp [hend] at hcount
    | loop epollFd =>
        rw [Holds, hplace] at hend
        simp [hend.2.2] at hcount
    | done ret =>
        rw [Holds, hplace] at hend
        exact hend fd htwice

/-- `epoll_ctl` refuses the port, and `main` returns with both descriptors open. -/
theorem main_descriptors_refused :
    let log := ((Receiver.init 7 (fun _ => 0) []).start ⟨3, 1, 0, 0⟩ 4 (-1)).serialPort.log
    openAfter log = {3, 4} ∧ ∀ fd, ¬ClosedTwice fd log :=
  main_descriptors 7 (fun _ => 0) [] [(.starts ⟨3, 1, 0, 0⟩ 4 (-1), _)]
    ⟨.starts rfl (by decide), trivial⟩

end SbusRemote.Epoll
