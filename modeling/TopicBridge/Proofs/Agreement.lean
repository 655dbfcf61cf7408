import TopicBridge.Proofs.Exchange
import TopicBridge.Proofs.Parties
import TopicBridge.Proofs.Tables

/-! A client at the left end of two peer links and a server at the right one, whose turns come in
any order, with frames of applications and both deadlines between them. What a client knows at each
stand and what a server knows is kept by every turn, so that in the end the client has the table of
the server or has run out of time. -/
namespace TopicBridge.Negotiation

open Endpoint.Pair (Side)

deriving instance DecidableEq for Stand

def Party.act {α : Type} (party : Party α) (side : Side) : Stand α × Exchange → Stand α × Exchange
  | (.writing, exchange) =>
      (party.written (exchange.pair.write side party.topic party.payload).1,
        exchange.move side (.write .owner party.topic party.payload))
  | (.awaiting, exchange) =>
      (party.afterRead (exchange.pair.read side).1, exchange.move side .read)
  | (.ended result, exchange) => (.ended result, exchange)

/-- At its own end a party does what it does alone. -/
theorem Party.act_eq_turn {α : Type} (party : Party α) (side : Side) (stand : Stand α)
    (exchange : Exchange) :
    (party.act side (stand, exchange)).map id (·.pair.get side) =
      party.turn (stand, exchange.pair.get side) := by
  cases stand with
  | writing =>
      rw [act, turn_writing, Prod.map, Exchange.move, Exchange.pair_after, Endpoint.Pair.write]
      simp only [Endpoint.Pair.carry, Endpoint.Pair.get_other_set, Endpoint.Pair.get_set, id]
  | awaiting =>
      rw [act, turn_awaiting, Prod.map, Exchange.move, Exchange.pair_after, Endpoint.Pair.read]
      simp only [Endpoint.Pair.get_set, id]
  | ended result => rfl

structure Talk where
  exchange : Exchange
  client : Stand Table := .writing
  server : Stand Unit := .awaiting

/-- What may happen next: a turn of a party, its deadline, or a frame of an application. -/
inductive Turn where
  | client
  | server
  | clientLate
  | serverLate
  | application (side : Side) (handle : Handle) (topic : UInt8) (payload : Bytes)
      (free : Topic.isReserved topic = false)

namespace Talk

section
variable (asking : Party Table) (answering : Party Unit)

def turn (talk : Talk) : Turn → Talk
  | .client =>
      let (client, exchange) := asking.act .left (talk.client, talk.exchange)
      { talk with client, exchange }
  | .server =>
      let (server, exchange) := answering.act .right (talk.server, talk.exchange)
      { talk with server, exchange }
  | .clientLate => { talk with client := asking.late talk.client }
  | .serverLate => { talk with server := answering.late talk.server }
  | .application side handle topic payload _ =>
      { talk with exchange := talk.exchange.move side (.write handle topic payload) }

def run (talk : Talk) (turns : List Turn) : Talk :=
  turns.foldl (turn asking answering) talk

end
end Talk

/-- The right end has written no answer but this message. -/
def Honest (message : MappingMessage) (exchange : Exchange) : Prop :=
  ∀ sent ∈ exchange.written .right, sent.1 = Topic.response → sent.2 = message.encode

def Unasked (exchange : Exchange) : Prop :=
  ∀ sent ∈ exchange.written .left, sent.1 ≠ Topic.request

def Unheard (exchange : Exchange) : Prop :=
  ∀ frame ∈ exchange.frames .left, frame.topic ≠ Topic.response

def Asked (exchange : Exchange) : Prop :=
  ∃ frame ∈ exchange.frames .right, frame.topic = Topic.request

/-- Before each answer that the right end writes it has read a question. -/
def Orderly (exchange : Exchange) : Prop :=
  ∀ before payload result,
    before ++ [(Side.right, Event.write Topic.response payload result)] <+: exchange.log →
      ∃ frame, frame.topic = Topic.request ∧
        (Side.right, Event.read (.ok (some frame))) ∈ before

/-- What holds of the client at each stand. -/
def Asking (table : Table) (wait : Duration) (exchange : Exchange) : Stand Table → Prop
  | .writing => Unasked exchange ∧ Unheard exchange
  | .awaiting => Unheard exchange
  | .ended result => result = .ok table ∨ result = .error (.negotiationTimeout wait)

def Answering (message : MappingMessage) (exchange : Exchange) : Stand Unit → Prop
  | .writing => Asked exchange
  | .ended (.ok _) => Asked exchange ∧ (Topic.response, message.encode) ∈ exchange.written .right
  | _ => True

section
variable {config : FrameConfig} {exchange : Exchange} {side : Side} {pair : Endpoint.Pair}
  {event : Event} {message : MappingMessage} {table : Table} {wait : Duration}

theorem ne_of_free {topic : UInt8} (h : Topic.isReserved topic = false) :
    topic ≠ Topic.request ∧ topic ≠ Topic.response := by
  constructor <;> rintro rfl <;> cases h

theorem Honest.after (h : Honest message exchange)
    (hevent : side = .right → ∀ sent ∈ event.written,
      sent.1 = Topic.response → sent.2 = message.encode) :
    Honest message (exchange.after pair side event) := by
  intro sent hsent
  rw [Exchange.written_after_at, List.mem_append] at hsent
  rcases hsent with hold | hnew
  · exact h sent hold
  · by_cases hside : side = .right
    · rw [if_pos hside] at hnew
      exact hevent hside sent hnew
    · simp [hside] at hnew

theorem Orderly.after (h : Orderly exchange)
    (hevent : ∀ payload result, side = .right → event = .write Topic.response payload result →
      Asked exchange) :
    Orderly (exchange.after pair side event) := by
  intro before payload result hprefix
  rcases List.prefix_concat_iff.mp hprefix with hlast | hold
  · obtain ⟨rfl, hentry⟩ := List.append_inj' hlast rfl
    obtain ⟨hside, hwrite⟩ := Prod.mk.inj (List.singleton_inj.mp hentry)
    obtain ⟨frame, hframe, htopic⟩ := hevent payload result hside.symm hwrite.symm
    exact ⟨frame, htopic, Exchange.mem_log_of_mem_frames hframe⟩
  · exact h before payload result hold

theorem Unasked.after (h : Unasked exchange)
    (hevent : side = .left → ∀ sent ∈ event.written, sent.1 ≠ Topic.request) :
    Unasked (exchange.after pair side event) := by
  intro sent hsent
  rw [Exchange.written_after_at, List.mem_append] at hsent
  rcases hsent with hold | hnew
  · exact h sent hold
  · by_cases hside : side = .left
    · rw [if_pos hside] at hnew
      exact hevent hside sent hnew
    · simp [hside] at hnew

theorem Unheard.after (h : Unheard exchange)
    (hevent : side = .left → ∀ frame ∈ event.frames, frame.topic ≠ Topic.response) :
    Unheard (exchange.after pair side event) := by
  intro frame hframe
  rw [Exchange.frames_after_at, List.mem_append] at hframe
  rcases hframe with hold | hnew
  · exact h frame hold
  · by_cases hside : side = .left
    · rw [if_pos hside] at hnew
      exact hevent hside frame hnew
    · simp [hside] at hnew

theorem Asking.after {stand : Stand Table} (h : Asking table wait exchange stand)
    (hwritten : side = .left → ∀ sent ∈ event.written, sent.1 ≠ Topic.request)
    (hframes : side = .left → ∀ frame ∈ event.frames, frame.topic ≠ Topic.response) :
    Asking table wait (exchange.after pair side event) stand := by
  cases stand with
  | writing => exact ⟨Unasked.after h.1 hwritten, Unheard.after h.2 hframes⟩
  | awaiting => exact Unheard.after h hframes
  | ended result => exact h

theorem Asked.after (h : Asked exchange) : Asked (exchange.after pair side event) := by
  obtain ⟨frame, hframe, htopic⟩ := h
  refine ⟨frame, ?_, htopic⟩
  rw [Exchange.frames_after_at]
  exact List.mem_append_left _ hframe

theorem Answering.after {stand : Stand Unit} (h : Answering message exchange stand) :
    Answering message (exchange.after pair side event) stand := by
  cases stand with
  | writing => exact Asked.after h
  | awaiting => trivial
  | ended result =>
      cases result with
      | error cause => trivial
      | ok _ =>
          refine ⟨Asked.after h.1, ?_⟩
          rw [Exchange.written_after_at]
          exact List.mem_append_left _ h.2

end

theorem fits_of_length_le {config : FrameConfig} {message : MappingMessage}
    (hsize : message.encode.length ≤ config.effectiveMaxPayload) : message.Fits := by
  apply MappingMessage.fits_of_length_encode
  have hlimit := config.effectiveMaxPayload_le_maxLength
  have hmax : FrameConfig.maxLength = 65535 := rfl
  have hword : UInt32.size = 4294967296 := rfl
  omega

theorem client_hears {table : Table} (hproper : table.Proper) (hfits : table.toMessage.Fits)
    (wait : Duration) :
    (client wait).received (.ok table.toMessage.encode) = .ended (.ok table) := by
  have hread : MappingMessage.decode table.toMessage.encode >>= Table.ofMessage = .ok table := by
    rw [MappingMessage.decode_encode hfits]
    exact hproper.ofMessage_toMessage
  exact congrArg Stand.ended hread

/-- Between any two turns. -/
structure Agreed (config : FrameConfig) (table : Table) (wait : Duration) (talk : Talk) :
    Prop where
  kept : talk.exchange.Kept config
  honest : Honest table.toMessage talk.exchange
  orderly : Orderly talk.exchange
  asking : Asking table wait talk.exchange talk.client
  answering : Answering table.toMessage talk.exchange talk.server

section
variable {config : FrameConfig} {table : Table} {wait serverWait : Duration} {talk : Talk}

theorem Asking.read {exchange : Exchange} (hvalid : config.validate = .ok ())
    (hhears : (client wait).received (.ok table.toMessage.encode) = .ended (.ok table))
    (hkept : exchange.Kept config) (hhonest : Honest table.toMessage exchange)
    (h : Asking table wait exchange .awaiting) :
    Asking table wait (exchange.move .left .read)
      ((client wait).afterRead (exchange.pair.read .left).1) := by
  obtain ⟨found, hread, hfound⟩ := hkept.read_found hvalid .left
  rw [Exchange.move, hread]
  cases found with
  | none =>
      apply Unheard.after h
      intro _ frame hframe
      cases hframe
  | some frame =>
      by_cases htopic : frame.topic = Topic.response
      · have hpayload : frame.payload = table.toMessage.encode :=
          hhonest _ (hfound frame rfl) htopic
        rw [Party.afterRead_of_frame (client wait) htopic, hpayload, hhears]
        exact .inl rfl
      · rw [Party.afterRead_of_other (client wait) htopic]
        apply Unheard.after h
        intro _ other hother
        rw [List.mem_singleton.mp hother]
        exact htopic

theorem Answering.read {exchange : Exchange} {message : MappingMessage}
    (hvalid : config.validate = .ok ()) (hkept : exchange.Kept config) :
    Answering message (exchange.move .right .read)
      ((server message serverWait).afterRead (exchange.pair.read .right).1) := by
  obtain ⟨found, hread, -⟩ := hkept.read_found hvalid .right
  rw [Exchange.move, hread]
  cases found with
  | none => trivial
  | some frame =>
      by_cases htopic : frame.topic = Topic.request
      · rw [Party.afterRead_of_frame (server message serverWait) htopic]
        refine ⟨frame, ?_, htopic⟩
        rw [Exchange.frames_after_at]
        exact List.mem_append_right _ List.mem_cons_self
      · rw [Party.afterRead_of_other (server message serverWait) htopic]
        trivial

theorem Answering.write {exchange : Exchange} {message : MappingMessage} {length : Nat}
    (serverWait : Duration)
    (hwrite : (exchange.pair.write .right Topic.response message.encode).1 = .ok length)
    (h : Answering message exchange .writing) :
    Answering message (exchange.move .right (.write .owner Topic.response message.encode))
      ((server message serverWait).written
        (exchange.pair.write .right Topic.response message.encode).1) := by
  rw [Exchange.move, hwrite]
  refine ⟨Asked.after h, ?_⟩
  rw [Exchange.written_after_at]
  exact List.mem_append_right _ List.mem_cons_self

theorem Agreed.client_turn (hvalid : config.validate = .ok ())
    (hhears : (client wait).received (.ok table.toMessage.encode) = .ended (.ok table))
    (h : Agreed config table wait talk) :
    Agreed config table wait
      (talk.turn (client wait) (server table.toMessage serverWait) .client) := by
  obtain ⟨exchange, stand, server⟩ := talk
  obtain ⟨hkept, hhonest, horderly, hasking, hanswering⟩ := h
  cases stand with
  | writing =>
      have hsize : ([] : Bytes).length ≤ config.effectiveMaxPayload := Nat.zero_le _
      have hwrite := hkept.write_of_le hvalid .left Topic.request hsize
      refine ⟨hkept.move hvalid .left (.write .owner Topic.request []), hhonest.after nofun,
        horderly.after nofun, ?_, hanswering.after⟩
      change Asking _ _ _ ((client wait).written (exchange.pair.write .left Topic.request []).1)
      rw [hwrite]
      exact Unheard.after hasking.2 nofun
  | awaiting =>
      exact ⟨hkept.move hvalid .left .read, hhonest.after nofun, horderly.after nofun,
        hasking.read hvalid hhears hkept hhonest, hanswering.after⟩
  | ended result => exact ⟨hkept, hhonest, horderly, hasking, hanswering⟩

theorem Agreed.server_turn (hvalid : config.validate = .ok ())
    (hsize : table.toMessage.encode.length ≤ config.effectiveMaxPayload)
    (h : Agreed config table wait talk) :
    Agreed config table wait
      (talk.turn (client wait) (server table.toMessage serverWait) .server) := by
  obtain ⟨exchange, asking, stand⟩ := talk
  obtain ⟨hkept, hhonest, horderly, hasking, hanswering⟩ := h
  cases stand with
  | writing =>
      have hwrite := hkept.write_of_le hvalid .right Topic.response hsize
      refine ⟨hkept.move hvalid .right (.write .owner Topic.response table.toMessage.encode),
        hhonest.after ?_, horderly.after fun _ _ _ _ => hanswering, hasking.after nofun nofun, ?_⟩
      · intro _ sent hsent _
        rw [Event.eq_of_mem_written hsent]
        rfl
      · exact Answering.write serverWait hwrite hanswering
  | awaiting =>
      refine ⟨hkept.move hvalid .right .read, hhonest.after ?_, horderly.after nofun,
        hasking.after nofun nofun, Answering.read hvalid hkept⟩
      intro _ sent hsent
      cases hsent
  | ended result => exact ⟨hkept, hhonest, horderly, hasking, hanswering⟩

theorem Agreed.late (h : Agreed config table wait talk) :
    Agreed config table wait
      (talk.turn (client wait) (server table.toMessage serverWait) .clientLate) ∧
    Agreed config table wait
      (talk.turn (client wait) (server table.toMessage serverWait) .serverLate) := by
  obtain ⟨exchange, asking, answering⟩ := talk
  obtain ⟨hkept, hhonest, horderly, hasking, hanswering⟩ := h
  constructor
  · refine ⟨hkept, hhonest, horderly, ?_, hanswering⟩
    cases asking with
    | writing => exact hasking
    | awaiting => exact .inr rfl
    | ended result => exact hasking
  · refine ⟨hkept, hhonest, horderly, hasking, ?_⟩
    cases answering with
    | writing => exact hanswering
    | awaiting => trivial
    | ended result => exact hanswering

theorem Agreed.application (hvalid : config.validate = .ok ()) (h : Agreed config table wait talk)
    (side : Side) (handle : Handle) {topic : UInt8} (payload : Bytes)
    (hfree : Topic.isReserved topic = false) :
    Agreed config table wait (talk.turn (client wait) (server table.toMessage serverWait)
      (.application side handle topic payload hfree)) := by
  obtain ⟨hrequest, hresponse⟩ := ne_of_free hfree
  refine ⟨h.kept.move hvalid side (.write handle topic payload), h.honest.after ?_,
    h.orderly.after ?_, h.asking.after ?_ ?_, h.answering.after⟩
  · intro _ sent hsent htopic
    rw [Event.eq_of_mem_written hsent] at htopic
    exact absurd htopic hresponse
  · rintro _ _ _ hwrite
    exact absurd (Event.write.inj hwrite).1 hresponse
  · intro _ sent hsent
    rw [Event.eq_of_mem_written hsent]
    exact hrequest
  · intro _ frame hframe
    cases hframe

theorem Agreed.turn (hvalid : config.validate = .ok ()) (hproper : table.Proper)
    (hsize : table.toMessage.encode.length ≤ config.effectiveMaxPayload)
    (h : Agreed config table wait talk) (turn : Turn) :
    Agreed config table wait
      (talk.turn (client wait) (server table.toMessage serverWait) turn) := by
  cases turn with
  | client => exact h.client_turn hvalid (client_hears hproper (fits_of_length_le hsize) wait)
  | server => exact h.server_turn hvalid hsize
  | clientLate => exact h.late.1
  | serverLate => exact h.late.2
  | application side handle topic payload hfree =>
      exact h.application hvalid side handle payload hfree

theorem Agreed.run (hvalid : config.validate = .ok ()) (hproper : table.Proper)
    (hsize : table.toMessage.encode.length ≤ config.effectiveMaxPayload)
    (h : Agreed config table wait talk) (turns : List Turn) :
    Agreed config table wait
      (talk.run (client wait) (server table.toMessage serverWait) turns) := by
  induction turns generalizing talk with
  | nil => exact h
  | cons turn turns ih => exact ih (h.turn hvalid hproper hsize turn)

end

end TopicBridge.Negotiation
