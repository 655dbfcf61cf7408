import TopicBridge.Bridge
import TopicBridge.Proofs.Parties
import TopicBridge.Proofs.Writing

/-! Which errors of a start abort it. All that come of settings, of tables and of waiting for an
answer do. The one that need not is the loss of the question itself, on a link that stays usable. -/
namespace TopicBridge

def Fatal {α : Type} (result : Except BridgeError α) : Prop :=
  ∀ cause, result = .error cause → cause.isFatal = true

/-- An error that need not abort a start. -/
def Survivable {α : Type} (result : Except BridgeError α) : Prop :=
  ∃ cause, result = .error cause ∧ cause.isFatal = false

section
variable {α β : Type} {result : Except BridgeError α} {cause : BridgeError}

theorem fatal_ok (a : α) : Fatal (.ok a : Except BridgeError α) := nofun

theorem fatal_error (h : cause.isFatal = true) : Fatal (.error cause : Except BridgeError α) := by
  rintro _ ⟨⟩
  exact h

theorem Fatal.not_survivable (h : Fatal result) : ¬ Survivable result := by
  rintro ⟨cause, hresult, hfatal⟩
  rw [h cause hresult] at hfatal
  cases hfatal

theorem Fatal.bind {more : α → Except BridgeError β} (h : Fatal result)
    (hmore : ∀ a, Fatal (more a)) : Fatal (result >>= more) := by
  cases result with
  | error cause => exact fatal_error (h cause rfl)
  | ok a => exact hmore a

theorem Fatal.map {f : α → β} (h : Fatal result) : Fatal (result.map f) := by
  cases result with
  | error cause => exact fatal_error (h cause rfl)
  | ok a => exact fatal_ok (f a)

theorem fatal_mapError {ε : Type} {f : ε → BridgeError} (h : ∀ cause, (f cause).isFatal = true)
    (result : Except ε α) : Fatal (result.mapError f) := by
  cases result with
  | error cause => exact fatal_error (h cause)
  | ok a => exact fatal_ok a

theorem fatal_foldlM {step : β → α → Except BridgeError β} (h : ∀ b a, Fatal (step b a))
    (items : List α) (b : β) : Fatal (items.foldlM step b) := by
  induction items generalizing b with
  | nil => exact fatal_ok b
  | cons item rest ih =>
      rw [List.foldlM_cons]
      exact (h b item).bind ih

theorem fatal_mapM {step : α → Except BridgeError β} (h : ∀ a, Fatal (step a))
    (items : List α) : Fatal (items.mapM step) := by
  induction items with
  | nil => exact fatal_ok []
  | cons item rest ih =>
      rw [List.mapM_cons]
      exact (h item).bind fun b => ih.bind fun bs => fatal_ok (b :: bs)

end

namespace Parameters
variable (params : Parameters) (name : String)

theorem fatal_require : Fatal (params.require name) := by
  rw [require]
  split
  · exact fatal_ok _
  · exact fatal_error rfl

theorem fatal_stringOf (value : ParamValue) : Fatal (stringOf name value) := by
  rw [stringOf]
  split
  · exact fatal_ok _
  · exact fatal_error rfl

theorem fatal_intOf (value : ParamValue) : Fatal (intOf name value) := by
  rw [intOf]
  split
  · exact fatal_ok _
  · exact fatal_error rfl

theorem fatal_requireString : Fatal (params.requireString name) :=
  (params.fatal_require name).bind (fatal_stringOf name)

theorem fatal_requireInt : Fatal (params.requireInt name) :=
  (params.fatal_require name).bind (fatal_intOf name)

theorem fatal_inRange (range : Text.IntegerRange) (n : Int) : Fatal (inRange range name n) := by
  rw [inRange]
  split
  · exact fatal_ok _
  · exact fatal_error rfl

theorem fatal_requireWithin (range : Text.IntegerRange) :
    Fatal (params.requireWithin range name) :=
  (params.fatal_requireInt name).bind (fatal_inRange name range)

theorem fatal_optionalWithin (range : Text.IntegerRange) :
    Fatal (params.optionalWithin range name) := by
  rw [optionalWithin]
  split
  · exact (params.fatal_requireWithin name range).map
  · exact fatal_ok none

theorem fatal_requireNat (bits : Nat) : Fatal (params.requireNat bits name) :=
  (params.fatal_requireWithin name (.unsigned bits)).map

end Parameters

namespace Settings

theorem fatal_positive (name : String) (value : Nat) : Fatal (positive name value) := by
  rw [positive]
  split
  · exact fatal_error rfl
  · exact fatal_ok ()

theorem fatal_validate (settings : Settings) : Fatal settings.validate := by
  apply (fatal_positive _ _).bind
  intro _
  apply (fatal_positive _ _).bind
  intro _
  apply (fatal_positive _ _).bind
  intro _
  exact fatal_mapError (fun _ => rfl) _

theorem fatal_protocolOf (name : String) : Fatal (protocolOf name) := by
  rw [protocolOf]
  split
  · exact fatal_ok _
  · exact fatal_error rfl

theorem fatal_ofParameters (params : Parameters) : Fatal (ofParameters params) := by
  apply (params.fatal_requireString _).bind
  intro _
  apply (fatal_protocolOf _).bind
  intro _
  apply (params.fatal_requireNat _ _).bind
  intro _
  apply (params.fatal_requireNat _ _).bind
  intro _
  apply (params.fatal_requireNat _ _).bind
  intro _
  apply (params.fatal_optionalWithin _ _).bind
  intro _
  apply (params.fatal_requireInt _).bind
  intro _
  apply (fatal_validate _).bind
  intro _
  exact fatal_ok _

end Settings

namespace Table

theorem fatal_add (table : Table) (mapping : TopicMapping) : Fatal (table.add mapping) := by
  rw [add]
  split
  · exact fatal_error rfl
  · split
    · exact fatal_error rfl
    · split
      · exact fatal_error rfl
      · exact fatal_ok _

theorem fatal_ofMappings (mappings : List TopicMapping) : Fatal (ofMappings mappings) :=
  fatal_foldlM fatal_add mappings empty

theorem fatal_read (params : Parameters) (key topic setting : String) (draft : Draft) :
    Fatal (draft.read params key topic setting) := by
  unfold Draft.read
  split
  · exact (params.fatal_requireNat _ _).map
  · exact (params.fatal_requireString _).map
  · apply (params.fatal_requireString _).bind
    intro value
    split
    · exact fatal_ok _
    · exact fatal_error rfl
  · exact fatal_error rfl

theorem fatal_draftKey (params : Parameters) (drafts : OrderedMap String Draft) (key : String) :
    Fatal (draftKey params drafts key) := by
  rw [draftKey]
  split
  · exact fatal_ok drafts
  · exact (fatal_read params key _ _ _).map

theorem fatal_complete (name : String) (draft : Draft) : Fatal (draft.complete name) := by
  rw [Draft.complete]
  split
  · exact fatal_error rfl
  · exact fatal_error rfl
  · exact fatal_error rfl
  · exact fatal_ok _

theorem fatal_ofParameters (params : Parameters) : Fatal (ofParameters params) := by
  apply (fatal_foldlM (fatal_draftKey params) params.keys .empty).bind
  intro drafts
  apply (fatal_mapM (fun entry => fatal_complete entry.1 entry.2) drafts.entries).bind
  exact fatal_ofMappings

theorem fatal_rows (names : List String) (ids : Bytes) (types : List String) (codes : Bytes) :
    Fatal (rows names ids types codes) := by
  fun_induction rows names ids types codes with
  | case1 => exact fatal_error rfl
  | case2 _ _ _ _ _ _ _ _ _ _ ih => exact ih.map
  | case3 => exact fatal_ok []

theorem fatal_commonLength (message : MappingMessage) : Fatal message.commonLength := by
  rw [MappingMessage.commonLength]
  split
  · exact fatal_ok _
  · exact fatal_error rfl

theorem fatal_ofMessage (message : MappingMessage) : Fatal (ofMessage message) := by
  apply (fatal_commonLength message).bind
  intro _
  apply (fatal_rows _ _ _ _).bind
  exact fatal_ofMappings

end Table

namespace Negotiation

theorem isFatal_of_not_transient {cause : FrameError} (h : cause.isTransient = false) :
    (BridgeError.frame cause).isFatal = true := by
  cases cause with
  | link fault =>
      cases fault with
      | closed => rfl
      | _ => cases h
  | _ => simp [BridgeError.isFatal, h]

theorem fatal_of_heard {topic : UInt8} {result : Except FrameError (Option Frame)}
    {outcome : Except BridgeError Bytes} (h : heard topic result = some outcome) :
    Fatal outcome := by
  rcases result with cause | _ | frame
  · cases htransient : cause.isTransient with
    | true => simp [heard, htransient] at h
    | false =>
        simp only [heard, htransient, Bool.false_eq_true, if_false, Option.some.injEq] at h
        rw [← h]
        exact fatal_error (isFatal_of_not_transient htransient)
  · cases h
  · by_cases htopic : frame.topic = topic
    · simp only [heard, htopic, if_true, Option.some.injEq] at h
      rw [← h]
      exact fatal_ok _
    · simp [heard, htopic] at h

/-- Lost frames are passed over, so a wait ends with an answer, late, or with the link. -/
theorem fatal_await (topic : UInt8) (wait : Duration) (reads : Nat) (endpoint : Endpoint) :
    Fatal (await topic wait reads endpoint).1 := by
  induction reads generalizing endpoint with
  | zero => exact fatal_error rfl
  | succ reads ih =>
      rw [await_succ]
      cases hheard : heard topic endpoint.read.1 with
      | none => exact ih endpoint.read.2
      | some outcome => exact fatal_of_heard hheard

/-- The question could not be sent, on a link that can still be used. -/
def QuestionLost (endpoint : Endpoint) : Prop :=
  ∃ fault, (endpoint.write Topic.request []).1 = .error (.link fault) ∧
    BridgeError.endsLink fault = false

/-- A question always fits its frame, so only the link can refuse it. -/
theorem exists_link_of_write {endpoint : Endpoint} {cause : FrameError}
    (h : (endpoint.write Topic.request []).1 = .error cause) : ∃ fault, cause = .link fault := by
  have hwrites := endpoint.writes_write Topic.request []
  generalize endpoint.write Topic.request [] = answer at hwrites h
  cases hwrites with
  | tooLong hlong => exact absurd hlong (Nat.not_lt_zero _)
  | @refused fault => exact ⟨fault, (Except.error.inj h).symm⟩
  | written => cases h

theorem negotiate_survivable_iff (wait : Duration) (reads : Endpoint → Nat)
    (endpoint : Endpoint) :
    Survivable (negotiate wait reads endpoint).1 ↔ QuestionLost endpoint := by
  rcases hwrite : endpoint.write Topic.request [] with ⟨written, next⟩
  rw [negotiate, request, QuestionLost, hwrite]
  cases written with
  | error cause =>
      obtain ⟨fault, rfl⟩ := exists_link_of_write (congrArg Prod.fst hwrite)
      constructor
      · rintro ⟨_, ⟨⟩, hfatal⟩
        exact ⟨fault, rfl, hfatal⟩
      · rintro ⟨_, ⟨⟩, hends⟩
        exact ⟨_, rfl, hends⟩
  | ok length =>
      have hanswered : Fatal ((await Topic.response wait (reads next) next).1 >>=
          MappingMessage.decode >>= Table.ofMessage) := by
        apply Fatal.bind
        · apply (fatal_await _ _ _ _).bind
          intro payload
          exact fatal_mapError (fun _ => rfl) _
        · exact Table.fatal_ofMessage
      constructor
      · intro h
        exact absurd h hanswered.not_survivable
      · rintro ⟨_, ⟨⟩, _⟩

theorem loadTable_survivable_iff (settings : Settings) (params : Parameters)
    (reads : Duration → Endpoint → Nat) (endpoint : Endpoint) :
    Survivable (loadTable settings params reads endpoint).1 ↔
      settings.negotiationWait.isSome ∧ QuestionLost endpoint := by
  rw [loadTable]
  cases settings.negotiationWait with
  | none => simpa using (Table.fatal_ofParameters params).not_survivable
  | some wait => simpa using negotiate_survivable_iff wait (reads wait) endpoint

/-- Of all that ends a start before its topics are registered, only the loss of the question on a
link that can still be used need not be fatal. -/
theorem start_survives_iff (settings : Settings) (params : Parameters)
    (mappings : List TopicMapping) (message : MappingMessage) (wait : Duration)
    (reads : Duration → Endpoint → Nat) (endpoint : Endpoint) :
    Fatal settings.validate ∧ Fatal (Settings.ofParameters params) ∧
      Fatal (Table.ofParameters params) ∧ Fatal (Table.ofMappings mappings) ∧
      Fatal (Table.ofMessage message) ∧
      (Survivable (negotiate wait (reads wait) endpoint).1 ↔ QuestionLost endpoint) ∧
      (Survivable (loadTable settings params reads endpoint).1 ↔
        settings.negotiationWait.isSome ∧ QuestionLost endpoint) :=
  ⟨settings.fatal_validate, Settings.fatal_ofParameters params, Table.fatal_ofParameters params,
    Table.fatal_ofMappings mappings, Table.fatal_ofMessage message,
    negotiate_survivable_iff wait (reads wait) endpoint,
    loadTable_survivable_iff settings params reads endpoint⟩

/-- A question that is cut off by a timeout, on a link that stays open, ends the negotiation with an
error that counts as one to survive. -/
theorem not_every_negotiation_error_fatal :
    ¬ ∀ wait reads endpoint, Fatal (negotiate wait reads endpoint).1 := by
  intro hfatal
  have hseen : (Endpoint.create { Link.stream with sendFault := some (.writeTimeout 3 9) } {}).map
      (fun endpoint => (negotiate ⟨5⟩ (fun _ => 1) endpoint).1) =
      .ok (.error (.frame (.link (.writeTimeout 3 9)))) := rfl
  obtain ⟨endpoint, hcreate⟩ : ∃ endpoint,
      Endpoint.create { Link.stream with sendFault := some (.writeTimeout 3 9) } {} =
        .ok endpoint := ⟨_, rfl⟩
  rw [hcreate] at hseen
  exact absurd (hfatal ⟨5⟩ _ endpoint _ (Except.ok.inj hseen)) nofun

end Negotiation
end TopicBridge
