import SlabFlux.Transport.StreamDefragmenter.Model

/-!
# Which divisions of a stream are delivered

For a parser that can take up a message where it left it, the messages handed on are those
of the stream exactly for the divisions whose frames fit behind what the session holds.

If every frame fits, the window of the session is always the part of the stream that
follows the messages handed on.  If a frame does not fit, the rotation drops what the
session holds; the bytes of the messages handed on then no longer add up to the stream.
-/

namespace SlabFlux.Transport.StreamDefragmenter

open Lib SessionContext Link

universe u

variable {σ : Type u} {protocol : Protocol σ} {link : Link σ}
variable {incoming : Bytes} {messages : List Bytes}

/-- A parser that can be resumed.  `Message` says which byte sequences are messages,
`Awaits` that a parser state is left by a part of a message, and `Presents` that a parser
state stands for a whole one. -/
structure Resumable (protocol : Protocol σ) (Message : Bytes → Prop)
    (Awaits Presents : σ → Bytes → Prop) : Prop where
  nonempty : ∀ message, Message message → message ≠ []
  fresh : ∀ state, Awaits (protocol.reset state) []
  complete : ∀ state seen window message, Awaits state seen → seen <+: window →
    Message message → message <+: window → (protocol.parse window state).1 = .ok ∧
        protocol.totalBytesConsumed (protocol.parse window state).2 = message.length ∧
        Presents (protocol.parse window state).2 message
  unfinished : ∀ state seen window message, Awaits state seen → seen <+: window →
    Message message → window <+: message → window ≠ message →
      (protocol.parse window state).1 = .incomplete ∧ Awaits (protocol.parse window state).2 window

/-- What was handed on stands for the given messages. -/
def Delivered (Presents : σ → Bytes → Prop) (handed : List (σ × Bytes))
    (messages : List Bytes) : Prop :=
  List.Forall₂ (fun entry message => entry.2 = message ∧ Presents entry.1 message)
    handed messages

/-! ## The window of a session -/

namespace SessionContext

@[simp] theorem length_streamWindow (ctx : SessionContext σ) :
    ctx.streamWindow.length = ctx.accumulatedBytes :=
  Memory.length_bytes _ _ _

theorem streamWindow_eq_nil {ctx : SessionContext σ} (empty : ctx.accumulatedBytes = 0) :
    ctx.streamWindow = [] := by
  apply List.eq_nil_of_length_eq_zero
  rw [length_streamWindow, empty]

theorem streamWindow_append (ctx : SessionContext σ) (incoming : Bytes) :
    (ctx.append incoming).streamWindow = ctx.streamWindow ++ incoming :=
  Memory.bytes_copy_behind _ _ _ _

end SessionContext

theorem Link.streamWindow_handOn (link : Link σ) (state : σ) :
    (link.handOn protocol state).streamWindow =
      link.streamWindow.drop (protocol.totalBytesConsumed state) := by
  by_cases inside : protocol.totalBytesConsumed state ≤ link.accumulatedBytes
  · have parts := Memory.bytes_add link.buffer link.readOffset
      (protocol.totalBytesConsumed state)
      (link.accumulatedBytes - protocol.totalBytesConsumed state)
    rw [Nat.add_sub_cancel' inside] at parts
    rw [streamWindow, streamWindow, parts, List.drop_left' (Memory.length_bytes _ _ _)]
    rfl
  · rw [List.drop_eq_nil_of_le (by rw [length_streamWindow]; omega)]
    apply streamWindow_eq_nil
    change link.accumulatedBytes - protocol.totalBytesConsumed state = 0
    omega

/-! ## Frames that fit -/

variable {Message : Bytes → Prop} {Awaits Presents : σ → Bytes → Prop}

/-- Where a session stands in a stream: what it holds, followed by what is still to come,
is the rest of the messages, and nothing it holds is a whole message. -/
structure Standing (Awaits : σ → Bytes → Prop) (link : Link σ) (messages : List Bytes)
    (future : Bytes) : Prop where
  split : link.streamWindow ++ future = messages.flatten
  awaits : Awaits link.protocolState link.streamWindow
  unfinished : ∀ message rest, messages = message :: rest → ¬ message <+: link.streamWindow

variable {final : Link σ} {fuel : Nat}

section

variable (resumable : Resumable protocol Message Awaits Presents)
include resumable

/-- A window that starts with a message: the message is handed on. -/
theorem crawl_complete {seen message : Bytes}
    (awaits : Awaits link.protocolState seen) (grown : seen <+: link.streamWindow)
    (isMessage : Message message) (complete : message <+: link.streamWindow) (fuel : Nat) :
    ∃ state, protocol.totalBytesConsumed state = message.length ∧ Presents state message ∧
      crawl protocol (fuel + 1) link = crawl protocol fuel (link.handOn protocol state) := by
  obtain ⟨status, consumed, presents⟩ :=
    resumable.complete _ _ _ _ awaits grown isMessage complete
  refine ⟨_, consumed, presents, ?_⟩
  have shorter := complete.length_le
  have positive := List.length_pos_iff.mpr (resumable.nonempty message isMessage)
  rw [length_streamWindow] at shorter
  rw [crawl, if_neg (by omega)]
  simp only [status]
  rw [if_pos (by omega)]

/-- A window that is only a part of a message: the loop ends. -/
theorem crawl_unfinished {seen message : Bytes}
    (awaits : Awaits link.protocolState seen) (grown : seen <+: link.streamWindow)
    (isMessage : Message message) (nonempty : link.accumulatedBytes ≠ 0)
    (begun : link.streamWindow <+: message) (unfinished : link.streamWindow ≠ message)
    (fuel : Nat) :
    ∃ state, Awaits state link.streamWindow ∧
      crawl protocol (fuel + 1) link = some { link with protocolState := state } := by
  obtain ⟨status, awaits'⟩ :=
    resumable.unfinished _ _ _ _ awaits grown isMessage begun unfinished
  refine ⟨_, awaits', ?_⟩
  rw [crawl, if_neg nonempty]
  simp only [status]

/-- The loop hands on the messages that are complete and keeps the rest. -/
theorem crawl_delivers (fuel : Nat) (link : Link σ) {seen future : Bytes}
    (areMessages : ∀ message ∈ messages, Message message) (awaits : Awaits link.protocolState seen)
    (grown : seen <+: link.streamWindow) (split : link.streamWindow ++ future = messages.flatten)
    (enough : link.accumulatedBytes < fuel) :
    ∃ final done rest given, crawl protocol fuel link = some final ∧
      messages = done ++ rest ∧ final.handed = link.handed ++ given ∧
      Delivered Presents given done ∧ Standing Awaits final rest future := by
  induction fuel generalizing link messages seen with
  | zero => exact absurd enough (Nat.not_lt_zero _)
  | succ fuel ih =>
      by_cases empty : link.accumulatedBytes = 0
      · have windowEq := streamWindow_eq_nil empty
        rw [windowEq] at grown
        obtain rfl : seen = [] := List.prefix_nil.mp grown
        refine ⟨link, [], messages, [], ?_, rfl, by simp, .nil, split, by rwa [windowEq], ?_⟩
        · rw [crawl, if_pos empty]
        · rintro message rest rfl isPrefix
          rw [windowEq] at isPrefix
          exact resumable.nonempty message (areMessages message List.mem_cons_self)
            (List.prefix_nil.mp isPrefix)
      · cases messages with
        | nil =>
            have lengthEq := link.length_streamWindow
            rw [(List.append_eq_nil_iff.mp split).1] at lengthEq
            exact absurd lengthEq.symm empty
        | cons message rest =>
            have isMessage := areMessages message List.mem_cons_self
            by_cases complete : message <+: link.streamWindow
            · obtain ⟨state, consumed, presents, crawlEq⟩ :=
                crawl_complete resumable awaits grown isMessage complete fuel
              obtain ⟨behind, windowEq⟩ := complete
              have windowAfter : (link.handOn protocol state).streamWindow = behind := by
                rw [streamWindow_handOn, consumed, ← windowEq, List.drop_left]
              have lengthAfter : (link.handOn protocol state).accumulatedBytes < fuel := by
                have positive := List.length_pos_iff.mpr (resumable.nonempty message isMessage)
                change link.accumulatedBytes - protocol.totalBytesConsumed state < fuel
                omega
              have splitAfter : (link.handOn protocol state).streamWindow ++ future =
                  rest.flatten := by
                rw [← windowEq, List.append_assoc] at split
                rw [windowAfter]
                exact List.append_cancel_left split
              obtain ⟨final, done, rest', given, crawled, restEq, handedEq, delivered,
                standing⟩ := ih (link.handOn protocol state)
                  (fun other member => areMessages other (List.mem_cons_of_mem _ member))
                  (resumable.fresh state) List.nil_prefix splitAfter lengthAfter
              refine ⟨final, message :: done, rest', (state, message) :: given,
                crawlEq.trans crawled, by rw [restEq, List.cons_append], ?_,
                .cons ⟨rfl, presents⟩ delivered, standing⟩
              rw [handedEq]
              change (link.handed ++ [(state, link.streamWindow.take _)]) ++ given = _
              rw [consumed, ← windowEq, List.take_left, List.append_assoc, List.singleton_append]
            · have begun : link.streamWindow <+: message :=
                (List.prefix_or_prefix_of_prefix (List.prefix_append message rest.flatten)
                  ⟨future, split⟩).resolve_left complete
              have unfinished : link.streamWindow ≠ message := by
                intro equal
                exact complete (equal ▸ List.prefix_rfl)
              obtain ⟨state, awaits', crawlEq⟩ :=
                crawl_unfinished resumable awaits grown isMessage empty begun unfinished fuel
              refine ⟨_, [], message :: rest, [], crawlEq, rfl, by simp, .nil, ?_, awaits', ?_⟩
              · exact split
              · intro other rest' equal
                obtain ⟨rfl, -⟩ := List.cons.inj equal
                exact complete

end

theorem Standing.settle {future : Bytes} (standing : Standing Awaits link messages future) :
    Standing Awaits link.settle messages future := by
  have windowEq : link.settle.streamWindow = link.streamWindow := by
    unfold Link.settle
    split
    next empty =>
      rw [streamWindow_eq_nil empty]
      exact streamWindow_eq_nil empty
    next => rfl
  have stateEq : link.settle.protocolState = link.protocolState := by
    unfold Link.settle
    split <;> rfl
  obtain ⟨split, awaits, unfinished⟩ := standing
  rw [← windowEq] at split awaits unfinished
  rw [← stateEq] at awaits
  exact ⟨split, awaits, unfinished⟩

theorem Link.handed_settle (link : Link σ) : link.settle.handed = link.handed := by
  unfold settle
  split <;> rfl

/-- A frame that fits completes messages of the stream, and these are handed on. -/
theorem on_delivers (resumable : Resumable protocol Message Awaits Presents)
    {incoming future : Bytes} (areMessages : ∀ message ∈ messages, Message message)
    (standing : Standing Awaits link messages (incoming ++ future))
    (fits : link.overflows incoming = false) (enough : bufferCapacity < fuel) :
    ∃ final done rest given, on protocol fuel link incoming = some final ∧
      messages = done ++ rest ∧ final.handed = link.handed ++ given ∧
      Delivered Presents given done ∧ Standing Awaits final rest future := by
  have room : link.readOffset + link.accumulatedBytes + incoming.length ≤ bufferCapacity := by
    simpa [overflows] using fits
  have windowEq := link.toSessionContext.streamWindow_append incoming
  obtain ⟨final, done, rest, given, crawled, parts, handedEq, delivered, standing'⟩ :=
    crawl_delivers resumable fuel
      { link with toSessionContext := link.toSessionContext.append incoming } areMessages
      standing.awaits (by rw [windowEq]; exact List.prefix_append _ _)
      (by rw [windowEq, List.append_assoc]; exact standing.split) (by
        change link.accumulatedBytes + incoming.length < fuel
        omega)
  refine ⟨final.settle, done, rest, given, ?_, parts, ?_, delivered, standing'.settle⟩
  · rw [on, fits, accept, crawled]
    rfl
  · rw [handed_settle, handedEq]

/-- A run of frames that all fit hands on the messages of the stream. -/
theorem execute_delivers (resumable : Resumable protocol Message Awaits Presents)
    (enough : bufferCapacity < fuel) {frames : List Bytes}
    (areMessages : ∀ message ∈ messages, Message message)
    (standing : Standing Awaits link messages frames.flatten)
    (fits : Admissible (step protocol fuel) Fits (some link) frames) :
    ∃ final given, execute (step protocol fuel) (some link) frames = some final ∧
      final.handed = link.handed ++ given ∧ Delivered Presents given messages := by
  induction frames generalizing link messages with
  | nil =>
      refine ⟨link, [], rfl, by simp, ?_⟩
      cases messages with
      | nil => exact .nil
      | cons message rest =>
          have whole := standing.split
          rw [List.flatten_nil, List.append_nil] at whole
          exact absurd ⟨rest.flatten, whole.symm⟩ (standing.unfinished message rest rfl)
  | cons incoming frames ih =>
      obtain ⟨fitsFirst, fitsRest⟩ := fits
      obtain ⟨next, done, rest, given, stepped, rfl, handedEq, delivered, standing'⟩ :=
        on_delivers resumable areMessages standing (fitsFirst link rfl) enough
      have stepEq : step protocol fuel (some link) incoming = some next := stepped
      rw [stepEq] at fitsRest
      obtain ⟨final, later, ran, handedEq', delivered'⟩ :=
        ih (fun message member => areMessages message (List.mem_append_right _ member))
          standing' fitsRest
      refine ⟨final, given ++ later, ?_, ?_, List.rel_append delivered delivered'⟩
      · rw [execute_cons, stepEq, ran]
      · rw [handedEq', handedEq, List.append_assoc]

/-! ## Frames that do not fit -/

/-- The number of bytes handed on. -/
def Link.handedBytes (link : Link σ) : Nat := (link.handed.map fun entry => entry.2.length).sum

/-- The number of bytes handed on or held. -/
def Link.accounted (link : Link σ) : Nat := link.handedBytes + link.accumulatedBytes

theorem Link.accounted_settle (link : Link σ) : link.settle.accounted = link.accounted := by
  unfold settle
  split <;> rfl

/-- No iteration of the loop hands on more bytes than it takes. -/
theorem crawl_accounted (crawled : crawl protocol fuel link = some final) :
    final.accounted ≤ link.accounted := by
  induction fuel generalizing link with
  | zero => simp [crawl] at crawled
  | succ fuel ih =>
      rw [crawl] at crawled
      split at crawled
      next => exact (Option.some.inj crawled ▸ le_rfl)
      next =>
        dsimp only at crawled
        split at crawled
        next =>
          split at crawled
          next inside =>
            apply (ih crawled).trans
            simp only [accounted, handedBytes, handOn, List.map_append,
              List.sum_append, List.map_cons, List.map_nil, List.sum_singleton, List.length_take,
              length_streamWindow]
            omega
          next => simp at crawled
        next =>
          obtain rfl := Option.some.inj crawled
          exact le_rfl
        next =>
          obtain rfl := Option.some.inj crawled
          exact Nat.add_le_add_left (Nat.zero_le _) _
        next =>
          have later := ih crawled
          exact later

theorem accept_accounted (accepted : accept protocol fuel link incoming = some final) :
    final.accounted ≤ link.accounted + incoming.length := by
  obtain ⟨crawled, run, rfl⟩ := Option.map_eq_some_iff.mp accepted
  rw [accounted_settle]
  exact (crawl_accounted run).trans_eq (Nat.add_assoc _ _ _).symm

/-- A frame that fits adds its bytes; one that does not fit drops what the session held. -/
theorem on_accounted (ran : on protocol fuel link incoming = some final) :
    final.accounted ≤ link.accounted + incoming.length ∧ (link.overflows incoming = true →
        final.accounted + link.accumulatedBytes ≤ link.accounted + incoming.length) := by
  unfold on at ran
  split at ran
  next overflowing =>
    have dropped : final.accounted ≤ link.handedBytes + incoming.length := by
      dsimp only at ran
      split at ran
      next =>
        obtain rfl := Option.some.inj ran
        exact Nat.le_add_right _ _
      next => exact accept_accounted ran
    unfold accounted at dropped ⊢
    exact ⟨by omega, fun _ => by omega⟩
  next fitting => exact ⟨accept_accounted ran, fun overflowing => absurd overflowing fitting⟩

/-- A session that holds nothing reads from the start of its buffer. -/
def Link.Settled (link : Link σ) : Prop := link.accumulatedBytes = 0 → link.readOffset = 0

theorem Link.settle_settled (link : Link σ) : link.settle.Settled := by
  intro empty
  unfold settle at empty ⊢
  split
  next => rfl
  next held =>
    rw [if_neg held] at empty
    exact absurd empty held

theorem on_settled (ran : on protocol fuel link incoming = some final) : final.Settled := by
  have accepted (current : Link σ) (ran : accept protocol fuel current incoming = some final) :
      final.Settled := by
    obtain ⟨crawled, -, rfl⟩ := Option.map_eq_some_iff.mp ran
    exact crawled.settle_settled
  unfold on at ran
  split at ran
  next =>
    dsimp only at ran
    split at ran
    next =>
      obtain rfl := Option.some.inj ran
      exact fun _ => rfl
    next => exact accepted _ ran
  next => exact accepted _ ran

/-- A run hands on no more bytes than the frames have, and fewer if a frame did not fit. -/
theorem execute_accounted {frames : List Bytes}
    (small : ∀ frame ∈ frames, frame.length ≤ bufferCapacity) (settled : link.Settled)
    (ran : execute (step protocol fuel) (some link) frames = some final) :
    final.accounted ≤ link.accounted + frames.flatten.length ∧
      (¬ Admissible (step protocol fuel) Fits (some link) frames →
        final.accounted < link.accounted + frames.flatten.length) := by
  induction frames generalizing link with
  | nil =>
      obtain rfl := Option.some.inj ran
      exact ⟨Nat.le_add_right _ _, fun misfit => absurd True.intro misfit⟩
  | cons incoming frames ih =>
      rw [execute_cons] at ran
      cases stepped : step protocol fuel (some link) incoming with
      | none =>
          rw [stepped, execute_none fun _ => rfl] at ran
          exact absurd ran.symm (Option.some_ne_none final)
      | some next =>
          have onEq : on protocol fuel link incoming = some next := stepped
          obtain ⟨bound, dropped⟩ := on_accounted onEq
          rw [stepped] at ran
          obtain ⟨later, laterStrict⟩ :=
            ih (fun frame member => small frame (List.mem_cons_of_mem _ member))
              (on_settled onEq) ran
          rw [List.flatten_cons, List.length_append]
          refine ⟨by omega, fun misfit => ?_⟩
          by_cases overflowing : link.overflows incoming = true
          · have held : 0 < link.accumulatedBytes := by
              by_contra empty
              have offsetEq := settled (by omega)
              have short := small incoming List.mem_cons_self
              simp only [overflows, decide_eq_true_eq] at overflowing
              omega
            have lost := dropped overflowing
            omega
          · have fitsFirst : Fits (some link) incoming := by
              intro current member
              obtain rfl := Option.some.inj member
              exact Bool.eq_false_iff.mpr overflowing
            have strict := laterStrict fun fitsRest =>
              misfit ⟨fitsFirst, by rw [stepped]; exact fitsRest⟩
            omega

theorem Delivered.handedBytes {handed : List (σ × Bytes)}
    (delivered : Delivered Presents handed messages) :
    (handed.map fun entry => entry.2.length).sum = messages.flatten.length := by
  induction delivered with
  | nil => rfl
  | cons same _ ih =>
      rw [List.map_cons, List.sum_cons, List.flatten_cons, List.length_append, ih, same.1]

/-- For every parser that can be resumed, every stream of messages and every division of it
into frames that are no longer than the buffer: the messages of the stream are handed on,
each once and in order, if and only if every frame fits behind what the session holds. -/
theorem delivers_iff_fits (resumable : Resumable protocol Message Awaits Presents)
    (state : σ) (buffer : Memory) {fuel : Nat} (enough : bufferCapacity < fuel)
    {messages frames : List Bytes} (areMessages : ∀ message ∈ messages, Message message)
    (small : ∀ frame ∈ frames, frame.length ≤ bufferCapacity)
    (division : frames.flatten = messages.flatten) :
    (∃ final, execute (step protocol fuel) (some (fresh protocol state buffer)) frames =
        some final ∧ Delivered Presents final.handed messages) ↔
      Admissible (step protocol fuel) Fits (some (fresh protocol state buffer)) frames := by
  constructor
  · rintro ⟨final, ran, delivered⟩
    by_contra misfit
    have lost := (execute_accounted small (fun _ => rfl) ran).2 misfit
    have handedEq : final.handedBytes = messages.flatten.length := delivered.handedBytes
    have freshEq : (fresh protocol state buffer).accounted = 0 := rfl
    rw [division, accounted] at lost
    omega
  · intro fits
    have standing : Standing Awaits (fresh protocol state buffer) messages frames.flatten := by
      have windowEq : (fresh protocol state buffer).streamWindow = [] := rfl
      refine ⟨by rw [windowEq, List.nil_append, division], ?_, ?_⟩
      · exact resumable.fresh state
      · rintro message rest rfl isPrefix
        exact resumable.nonempty message (areMessages message List.mem_cons_self)
          (List.prefix_nil.mp isPrefix)
    obtain ⟨final, given, ran, handedEq, delivered⟩ :=
      execute_delivers resumable enough areMessages standing fits
    exact ⟨final, ran, by rw [handedEq]; exact delivered⟩

/-! ## Records of a fixed size -/

/-- A protocol whose messages are the records of `size` bytes. -/
def records (size : Nat) : Protocol Unit where
  parse window _ := (if window.length < size then .incomplete else .ok, ())
  totalBytesConsumed _ := size
  reset _ := ()

theorem records_resumable {size : Nat} (positive : 0 < size) :
    Resumable (records size) (fun message => message.length = size) (fun _ _ => True)
      (fun _ _ => True) where
  nonempty := by
    rintro message lengthEq rfl
    exact absurd lengthEq.symm (Nat.ne_of_gt positive)
  fresh _ := True.intro
  complete := by
    intro state seen window message _ _ lengthEq isPrefix
    have shorter := isPrefix.length_le
    refine ⟨?_, lengthEq.symm, True.intro⟩
    exact if_neg (by omega)
  unfinished := by
    intro state seen window message _ _ lengthEq isPrefix different
    have shorter := isPrefix.length_le
    have lengthNe : window.length ≠ message.length :=
      fun same => different (isPrefix.eq_of_length same)
    refine ⟨?_, True.intro⟩
    exact if_pos (by omega)

/-- Two records of two bytes that arrive in three frames. -/
theorem delivers_iff_fits_threeFrames :
    ∃ final, execute (step (records 2) 524289)
        (some (fresh (records 2) () fun _ => 0)) [[1], [2, 3], [4]] = some final ∧
      Delivered (fun _ _ => True) final.handed [[1, 2], [3, 4]] :=
  (delivers_iff_fits (records_resumable (by decide)) () (fun _ => 0)
    (by decide) (by decide) (by decide) (by decide)).mpr (by
      refine ⟨?_, ?_, ?_, True.intro⟩
      all_goals
        rintro current member
        obtain rfl := Option.some.inj member
        decide +kernel)

/-- A frame with one record and a part of the next one leaves that part behind the record. -/
theorem on_records {size : Nat} (buffer : Memory) (fuel : Nat)
    (small : incoming.length ≤ bufferCapacity) (one : size < incoming.length)
    (notTwo : incoming.length < 2 * size) :
    ∃ next, on (records size) (fuel + 2) (fresh (records size) () buffer) incoming =
        some next ∧ next.readOffset = size ∧
      next.accumulatedBytes = incoming.length - size := by
  have fits : (fresh (records size) () buffer).overflows incoming = false := by
    simpa [overflows, fresh, clear] using small
  rw [on, fits, accept]
  generalize linkEq : ({ fresh (records size) () buffer with
    toSessionContext := (fresh (records size) () buffer).toSessionContext.append incoming } :
      Link Unit) = link
  have heldEq : link.accumulatedBytes = incoming.length := by
    rw [← linkEq]
    exact Nat.zero_add _
  have offsetEq : link.readOffset = 0 := by rw [← linkEq]; rfl
  have firstEq : crawl (records size) (fuel + 2) link =
      crawl (records size) (fuel + 1) (link.handOn (records size) ()) := by
    rw [crawl, if_neg (by omega)]
    simp only [records, length_streamWindow]
    rw [if_neg (by omega)]
    exact if_pos (by omega)
  have leftEq : (link.handOn (records size) ()).accumulatedBytes = incoming.length - size := by
    rw [← heldEq]
    rfl
  have secondEq : crawl (records size) (fuel + 1) (link.handOn (records size) ()) =
      some (link.handOn (records size) ()) := by
    rw [crawl, if_neg (by omega)]
    have short : (link.handOn (records size) ()).streamWindow.length < size := by
      rw [length_streamWindow]
      omega
    simp only [records] at short ⊢
    rw [if_pos short]
  refine ⟨_, by rw [firstEq, secondEq]; rfl, ?_⟩
  rw [settle, if_neg (by omega)]
  refine ⟨?_, leftEq⟩
  change link.readOffset + size = size
  omega

/-- A record and a part of the next one, followed by a frame that does not fit behind them. -/
theorem records_lost {size : Nat} {first second : Bytes} (buffer : Memory) (fuel : Nat)
    (one : size < first.length) (notTwo : first.length < 2 * size)
    (small : ∀ frame ∈ [first, second], frame.length ≤ bufferCapacity)
    (tooMuch : bufferCapacity < first.length + second.length)
    (division : [first, second].flatten = messages.flatten) :
    ¬ ∃ final, execute (step (records size) (fuel + 2))
        (some (fresh (records size) () buffer)) [first, second] = some final ∧
      Delivered (fun _ _ => True) final.handed messages := by
  rintro ⟨final, ran, delivered⟩
  obtain ⟨next, stepped, offsetEq, heldEq⟩ :=
    on_records buffer fuel (small first List.mem_cons_self) one notTwo
  have misfit : ¬ Admissible (step (records size) (fuel + 2)) Fits
      (some (fresh (records size) () buffer)) [first, second] := by
    rintro ⟨-, room, -⟩
    have stepEq : step (records size) (fuel + 2) (some (fresh (records size) () buffer)) first =
        some next := stepped
    rw [stepEq] at room
    have fits := room next rfl
    simp only [overflows, offsetEq, heldEq, decide_eq_false_iff_not] at fits
    omega
  have lost := (execute_accounted small (fun _ => rfl) ran).2 misfit
  have handedEq : final.handedBytes = messages.flatten.length := delivered.handedBytes
  have freshEq : (fresh (records size) () buffer).accounted = 0 := rfl
  rw [division, accounted] at lost
  omega

/-- Bytes that are all zero. -/
def zeros (count : Nat) : Bytes := List.replicate count 0

theorem length_zeros (count : Nat) : (zeros count).length = count := List.length_replicate

theorem zeros_append (left right : Nat) : zeros left ++ zeros right = zeros (left + right) :=
  List.replicate_append_replicate

/-- A record and a third of the next one are followed by the other two thirds, which do not
fit behind them: the rotation drops the third that the session holds. -/
theorem rotation_drops_partialRecord :
    (∀ frame ∈ [zeros 400000, zeros 200000], frame.length ≤ bufferCapacity) ∧
      (∀ message ∈ [zeros 300000, zeros 300000], message.length ≤ bufferCapacity) ∧
      [zeros 400000, zeros 200000].flatten = [zeros 300000, zeros 300000].flatten ∧
      ¬ ∃ final, execute (step (records 300000) 524289)
          (some (fresh (records 300000) () fun _ => 0)) [zeros 400000, zeros 200000] = some final ∧
        Delivered (fun _ _ => True) final.handed [zeros 300000, zeros 300000] := by
  have small : ∀ frame ∈ [zeros 400000, zeros 200000], frame.length ≤ bufferCapacity := by
    simp only [List.forall_mem_cons, length_zeros, bufferCapacity]
    exact ⟨by decide, by decide, List.forall_mem_nil _⟩
  have division : [zeros 400000, zeros 200000].flatten = [zeros 300000, zeros 300000].flatten := by
    simp only [List.flatten_cons, List.flatten_nil, List.append_nil, zeros_append]
  refine ⟨small, ?_, division, ?_⟩
  · simp only [List.forall_mem_cons, length_zeros, bufferCapacity]
    exact ⟨by decide, by decide, List.forall_mem_nil _⟩
  · apply records_lost (fun _ => 0) 524287 _ _ small _ division
    · rw [length_zeros]
      decide
    · rw [length_zeros]
      decide
    · rw [length_zeros, length_zeros]
      decide

end SlabFlux.Transport.StreamDefragmenter
