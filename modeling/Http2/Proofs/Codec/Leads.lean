import Http2.Proofs.Codec.Consistency

/-!
# How one thing follows another at an endpoint

A `Moment` is something that happens together with the codec just before it: a frame comes, the
application is told about a frame, or this side performs an operation. `Leads` says how moments follow
each other, and `Keeps` is the rule that goes with it: what every kind of moment keeps holds from any
moment on.
-/

namespace Http2

variable {δ α : Type}

/-- Something that happens at an endpoint. -/
inductive Occurrence (δ : Type) where
  /-- A frame has come. -/
  | received (f : Frame)
  /-- The application is told about a frame. `arrival` is the codec when the frame came. -/
  | called (arrival : Codec δ) (f : Frame) (callback : Callback)
  /-- This side performs an operation and gets an answer. -/
  | performed (op : Codec.Op δ) (reply : op.Reply)

/-- Something that happens, and the codec just before it. -/
structure Moment (δ : Type) where
  codec : Codec δ
  occurrence : Occurrence δ

namespace Moment

/-- The codec after an operation; any other moment is as yet without effect. -/
def next (m : Moment δ) : Codec δ :=
  match m.occurrence with
  | .performed op _ => (m.codec.perform op).2
  | _ => m.codec

/-- If an operation is performed, it is an allowed one. -/
def Within (allowed : Codec.Op δ → Prop) (m : Moment δ) : Prop :=
  ∀ op reply, m.occurrence = .performed op reply → allowed op

/-- If a frame comes, it is no fault. -/
def Fine (m : Moment δ) : Prop :=
  ∀ f, m.occurrence = .received f → ∀ c callback fault,
    Codec.Outcome m.codec f c callback fault → fault = none

/-- The property holds just before the moment or just after it. -/
def Shows (P : Codec δ → Prop) (m : Moment δ) : Prop :=
  P m.codec ∨ P m.next

end Moment

/-- The moments of a script. -/
def Script.moments : Script δ α → Codec δ → List (Moment δ)
  | .done _, _ => []
  | .call op next, c =>
    ⟨c, .performed op (c.perform op).1⟩ :: moments (next (c.perform op).1) (c.perform op).2

/-- A script does nothing but perform operations. -/
theorem Script.performed_of_mem {s : Script δ α} {c : Codec δ} {m : Moment δ}
    (member : m ∈ s.moments c) : ∃ op reply, m.occurrence = .performed op reply := by
  induction s generalizing c with
  | done value => cases member
  | call op next ih =>
    rcases List.mem_cons.mp member with rfl | member
    · exact ⟨_, _, rfl⟩
    · exact ih _ member

namespace Codec

/-- Moments that may lead from one codec to another. While there is a report that the application is
still to get, it is the `due` moment, and nothing comes before it. -/
inductive Leads (c : Codec δ) : List (Moment δ) → Option (Moment δ) → Codec δ → Prop
  | nil : Leads c [] none c
  | perform {log : List (Moment δ)} {c' : Codec δ} (before : Leads c log none c') (op : Op δ) :
      Leads c (log ++ [⟨c', .performed op (c'.perform op).1⟩]) none (c'.perform op).2
  | receive {log : List (Moment δ)} {c' c'' : Codec δ} {f : Frame} {callback : Option Callback}
      {fault : Option FrameError} (before : Leads c log none c')
      (outcome : Outcome c' f c'' callback fault) :
      Leads c (log ++ [⟨c', .received f⟩]) (callback.map fun told => ⟨c'', .called c' f told⟩) c''
  /-- The stream of a frame that went astray fails. -/
  | fail {log : List (Moment δ)} {arrival c' : Codec δ} {f : Frame} (before : Leads c log none c')
      (astray : Astray arrival f) :
      Leads c log (some ⟨c'.failed f.stream, .called arrival f (.error f.stream .protocolError)⟩)
        (c'.failed f.stream)
  /-- The application is told. -/
  | call {log : List (Moment δ)} {c' : Codec δ} {m : Moment δ} (before : Leads c log (some m) c') :
      Leads c (log ++ [m]) none c'
  /-- Bytes of a frame are taken. -/
  | reassemble {log : List (Moment δ)} {c' : Codec δ} (before : Leads c log none c')
      (a : Assembler) : Leads c log none { c' with assembler := a }

/-- Moments that may lead to a codec, whether the application is still to be told of it or not. -/
def LeadsTo (c : Codec δ) (log : List (Moment δ)) (c' : Codec δ) : Prop :=
  ∃ due, Leads c log due c'

/-- Where a moment can stand in a list that was extended by one. -/
theorem split_concat {log before after : List α} {last m : α}
    (split : log ++ [last] = before ++ m :: after) :
    (log = before ∧ last = m) ∨ ∃ between, log = before ++ m :: between := by
  rcases List.eq_nil_or_concat after with rfl | ⟨between, final, rfl⟩
  · obtain ⟨rfl, same⟩ := List.append_inj' split rfl
    exact .inl ⟨rfl, List.singleton_inj.mp same⟩
  · rw [List.concat_eq_append, ← List.cons_append, ← List.append_assoc] at split
    exact .inr ⟨between, (List.append_inj' split rfl).1⟩

namespace Leads

variable {c c' c'' : Codec δ} {log log' before after : List (Moment δ)} {m : Moment δ}
  {due : Option (Moment δ)}

/-- Moments that lead on from where others led follow them, unless a report is still due in between. -/
protected theorem trans (first : Leads c log none c') (second : Leads c' log' due c'') :
    Leads c (log ++ log') due c'' := by
  induction second with
  | nil => rwa [List.append_nil]
  | perform _ op ih =>
    rw [← List.append_assoc]
    exact .perform ih op
  | receive _ outcome ih =>
    rw [← List.append_assoc]
    exact .receive ih outcome
  | fail _ astray ih => exact .fail ih astray
  | call _ ih =>
    rw [← List.append_assoc]
    exact .call ih
  | reassemble _ a ih => exact .reassemble ih a

/-- What a moment of a run can be, after the moments before it. -/
inductive Follows (before : List (Moment δ)) : Moment δ → Prop
  | performed (c : Codec δ) (op : Op δ) : Follows before ⟨c, .performed op (c.perform op).1⟩
  | received (c : Codec δ) (f : Frame) : Follows before ⟨c, .received f⟩
  /-- The application is told what a frame caused, right after it came. -/
  | called {earlier : List (Moment δ)} {arrival c : Codec δ} {f : Frame} {callback : Callback}
      {fault : Option FrameError} (last : before = earlier ++ [⟨arrival, .received f⟩])
      (outcome : Outcome arrival f c (some callback) fault) :
      Follows before ⟨c, .called arrival f callback⟩
  /-- Only the error of a frame that went astray may come later. -/
  | stray {arrival : Codec δ} {f : Frame} (c : Codec δ) (astray : Astray arrival f) :
      Follows before ⟨c.failed f.stream, .called arrival f (.error f.stream .protocolError)⟩

/-- What is due is a report, and the codec waits for it. -/
theorem follows_of_due (leads : Leads c log (some m) c') :
    Follows log m ∧ ∃ arrival f callback, m = ⟨c', .called arrival f callback⟩ := by
  generalize pending : some m = due at leads
  cases leads with
  | receive _ outcome =>
    obtain ⟨callback, rfl, rfl⟩ := Option.map_eq_some_iff.mp pending.symm
    exact ⟨.called rfl outcome, _, _, callback, rfl⟩
  | fail _ astray =>
    cases pending
    exact ⟨.stray _ astray, _, _, _, rfl⟩
  | _ => cases pending

/-- The moments before a moment lead to its codec, and it is one that can follow them. Nothing else is
due then. -/
theorem reaches (leads : Leads c log due c') (split : log = before ++ m :: after) :
    (∃ due, (∀ d ∈ due, d = m) ∧ Leads c before due m.codec) ∧ Follows before m := by
  induction leads generalizing after with
  | nil => simp at split
  | perform earlier op ih =>
    rcases split_concat split with ⟨rfl, rfl⟩ | ⟨between, split⟩
    · exact ⟨⟨none, by simp, earlier⟩, .performed _ op⟩
    · exact ih split
  | receive earlier outcome ih =>
    rcases split_concat split with ⟨rfl, rfl⟩ | ⟨between, split⟩
    · exact ⟨⟨none, by simp, earlier⟩, .received _ _⟩
    · exact ih split
  | fail _ astray ih => exact ih split
  | call earlier ih =>
    rcases split_concat split with ⟨rfl, rfl⟩ | ⟨between, split⟩
    · obtain ⟨follows, _, _, _, rfl⟩ := follows_of_due earlier
      exact ⟨⟨some _, fun d member => (Option.some.inj member).symm, earlier⟩, follows⟩
    · exact ih split
  | reassemble _ a ih => exact ih split

/-- Up to each of its moments, a history leads to the codec of that moment. -/
theorem upto (leads : Leads c log due c') (split : log = before ++ m :: after) :
    LeadsTo c before m.codec := by
  obtain ⟨⟨due, -, earlier⟩, -⟩ := leads.reaches split
  exact ⟨due, earlier⟩

/-- Each moment of a history is one that may come after those before it. -/
theorem follows (leads : Leads c log due c') (split : log = before ++ m :: after) :
    Follows before m := (leads.reaches split).2

/-- When a frame comes, everything has been told. -/
theorem upto_received {arrival : Codec δ} {f : Frame} (leads : Leads c log due c')
    (split : log = before ++ ⟨arrival, .received f⟩ :: after) : Leads c before none arrival := by
  obtain ⟨⟨due, alone, earlier⟩, -⟩ := leads.reaches split
  cases due with
  | none => exact earlier
  | some d =>
    obtain rfl := alone d rfl
    obtain ⟨-, _, _, _, same⟩ := follows_of_due earlier
    cases same

/-- A property of codecs that everything that happens keeps, as long as only allowed operations are
performed. -/
structure Keeps (allowed : Op δ → Prop) (P : Codec δ → Prop) : Prop where
  perform : ∀ {c} op, allowed op → P c → P (c.perform op).2
  receive : ∀ {c c' f callback fault}, Outcome c f c' callback fault → P c → P c'
  fail : ∀ {c arrival : Codec δ} {f}, Astray arrival f → P c → P (c.failed f.stream)
  reassemble : ∀ {c} a, P c → P { c with assembler := a }

section Keeping

variable {allowed : Op δ → Prop} {P : Codec δ → Prop}

/-- What holds at the start, or around any moment up to the last one, holds around the last one. -/
theorem shows_last {last : Moment δ} (start : P c ∨ ∃ m ∈ log ++ [last], m.Shows P)
    (earlier : (P c ∨ ∃ m ∈ log, m.Shows P) → P last.codec) : last.Shows P := by
  rcases start with holds | ⟨m, member, shows⟩
  · exact .inl (earlier (.inl holds))
  · rcases List.mem_append.mp member with member | member
    · exact .inl (earlier (.inr ⟨m, member, shows⟩))
    · rwa [List.mem_singleton.mp member] at shows

/-- What holds at the start, or around any moment, holds at the end. -/
theorem keeps (leads : Leads c log due c') (rule : Keeps allowed P)
    (within : ∀ m ∈ log, m.Within allowed) (start : P c ∨ ∃ m ∈ log, m.Shows P) : P c' := by
  induction leads with
  | nil => simpa using start
  | perform _ op ih =>
    have here := within _ (List.mem_append_right _ List.mem_cons_self) op _ rfl
    rcases shows_last start (ih fun m member => within m (List.mem_append_left _ member)) with
      holds | holds
    · exact rule.perform op here holds
    · exact holds
  | receive _ outcome ih =>
    rcases shows_last start (ih fun m member => within m (List.mem_append_left _ member)) with
      holds | holds <;> exact rule.receive outcome holds
  | fail _ astray ih => exact rule.fail astray (ih within start)
  | call before ih =>
    obtain ⟨-, _, _, _, rfl⟩ := follows_of_due before
    rcases shows_last start (ih fun m member => within m (List.mem_append_left _ member)) with
      holds | holds <;> exact holds
  | reassemble _ a ih => exact rule.reassemble a (ih within start)

/-- What holds at the start, or around a moment, holds at every later one. -/
theorem keeps_at (leads : Leads c log due c') (rule : Keeps allowed P)
    (within : ∀ m ∈ log, m.Within allowed) (split : log = before ++ m :: after)
    (start : P c ∨ ∃ m ∈ before, m.Shows P) : P m.codec := by
  subst split
  obtain ⟨_, leading⟩ := leads.upto rfl
  exact leading.keeps rule (fun m member => within m (List.mem_append_left _ member)) start

end Keeping

/-- Whatever happens, the codec stays consistent. -/
theorem Keeps.consistent : Keeps (fun _ => True) (Consistent : Codec δ → Prop) where
  perform op _ consistent := consistent_perform consistent op
  receive outcome consistent := consistent_outcome consistent outcome
  fail _ consistent := consistent_failed consistent _
  reassemble a consistent := consistent.reassemble a

/-- What lasts of the state of a stream stays until the stream is evicted. -/
theorem Keeps.state {P : StreamState → Prop} (lasting : StreamState.Lasting P) (id : UInt32) :
    Keeps (· ≠ .evictClosed) fun c : Codec δ => P (c.streams.inbound id).state where
  perform op kept holds := state_of_edits lasting (edits_perform _ kept) holds
  receive outcome holds := state_of_outcome lasting outcome holds
  fail _ holds := by
    rw [failed, putStream, Registry.inbound_put]
    split
    · exact lasting.closes
    · exact holds
  reassemble _ holds := holds

/-- Whatever happens leaves flags, fragments and last frame in agreement. -/
theorem consistent (leads : Leads c log due c') (start : c.Consistent) : c'.Consistent :=
  leads.keeps .consistent (fun _ _ _ _ _ => trivial) (.inl start)

end Leads

/-- Codecs are consistent also in the middle of a frame, when a report of it is due. -/
theorem LeadsTo.consistent {c c' : Codec δ} {log : List (Moment δ)} (leads : LeadsTo c log c')
    (start : c.Consistent) : c'.Consistent :=
  leads.elim fun _ leading => leading.consistent start

end Codec

/-- What a script does leads from the codec on which it starts to the one it leaves. -/
theorem Script.leads (s : Script δ α) (c : Codec δ) :
    Codec.Leads c (s.moments c) none (s.run c).2 := by
  induction s generalizing c with
  | done value => exact .nil
  | call op next ih => exact (Codec.Leads.perform .nil op).trans (ih _ _)

end Http2
