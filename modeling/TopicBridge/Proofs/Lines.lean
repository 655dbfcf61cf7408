import TopicBridge.Host.Stdio
import TopicBridge.Proofs.Layout
import TopicBridge.Proofs.Trimming

/-! Messages of the host from lines. Data is cut into lines in one way only, and the messages of
the lines are queued in order. A line that is text but no message costs only itself. One that is
not text ends the reading, so the messages behind it are lost. -/
namespace TopicBridge.StdioHost
variable {line rest data : Bytes} {cut : List Bytes}

/-- A line without the carriage return at its end, if it has one. -/
def unreturned (line : Bytes) : Bytes :=
  if line.getLast? = some 0x0D then line.dropLast else line

/-- Data and its lines: each up to a line feed, the last one up to the end of the data. -/
inductive Cuts : Bytes → List Bytes → Prop
  | nil : Cuts [] []
  | last {line : Bytes} : line ≠ [] → 0x0A ∉ line → Cuts line [line]
  | ended {line rest : Bytes} {cut : List Bytes} : 0x0A ∉ line → Cuts rest cut →
      Cuts (line ++ 0x0A :: rest) (unreturned line :: cut)

def isText (line : Bytes) : Bool := (Cdr.utf8? line).isSome

/-- The message of a line that is text and not blank, if it is one. -/
def spelled? (line : Bytes) : Option HostMessage :=
  (Cdr.utf8? line).bind fun text =>
    if Text.Blank text.toList then none else (HostMessage.parse text).toOption

theorem linesFrom_feed (current rest : Bytes) :
    linesFrom current (0x0A :: rest) = unreturned current.reverse :: linesFrom [] rest := by
  rw [linesFrom.eq_def]
  simp only [if_true, List.cons.injEq, and_true, unreturned, List.getLast?_reverse]
  split
  · simp
  · next hother =>
      cases current with
      | nil => rfl
      | cons b before =>
          have hb : b ≠ 0x0D := fun heq => hother before (by rw [heq])
          simp [hb]

theorem linesFrom_append (h : 0x0A ∉ line) (current rest : Bytes) :
    linesFrom current (line ++ rest) = linesFrom (line.reverse ++ current) rest := by
  induction line generalizing current with
  | nil => rfl
  | cons b line ih =>
      simp only [List.mem_cons, not_or] at h
      simp [linesFrom.eq_def current, Ne.symm h.1, ih h.2]

theorem lines_ended (h : 0x0A ∉ line) (rest : Bytes) :
    lines (line ++ 0x0A :: rest) = unreturned line :: lines rest := by
  rw [lines, linesFrom_append h, List.append_nil, linesFrom_feed, List.reverse_reverse, lines]

theorem lines_last (hne : line ≠ []) (h : 0x0A ∉ line) : lines line = [line] := by
  have happend := linesFrom_append h [] []
  rw [List.append_nil] at happend
  simp [lines, happend, linesFrom, hne]

theorem cuts_lines (data : Bytes) : Cuts data (lines data) := by
  induction hlength : data.length using Nat.strong_induction_on generalizing data with
  | _ n ih =>
      by_cases hfeed : 0x0A ∈ data
      · obtain ⟨line, rest, rfl, hline⟩ := List.eq_append_cons_of_mem hfeed
        rw [lines_ended hline]
        refine .ended hline (ih rest.length ?_ rest rfl)
        rw [← hlength, List.length_append, List.length_cons]
        omega
      · by_cases hne : data = []
        · subst hne
          exact .nil
        · rw [lines_last hne hfeed]
          exact .last hne hfeed

theorem cuts_iff : Cuts data cut ↔ cut = lines data := by
  constructor
  · intro h
    induction h with
    | nil => rfl
    | last hne hline => rw [lines_last hne hline]
    | ended hline _ ih => rw [lines_ended hline, ih]
  · rintro rfl
    exact cuts_lines data

theorem messages_cons (line : Bytes) (cut : List Bytes) :
    messages (line :: cut) =
      if isText line then (spelled? line).toList ++ messages cut else [] := by
  rw [messages, isText, spelled?]
  cases htext : Cdr.utf8? line with
  | none => rfl
  | some text =>
      simp only [Option.isSome_some, if_true, Option.bind_some, List.isEmpty_iff,
        Text.trim_eq_nil_iff]
      split
      · rfl
      · cases HostMessage.parse text with
        | error fault => rfl
        | ok message => rfl

/-- The messages are those of the lines before the first one that is not text. -/
theorem messages_eq (cut : List Bytes) :
    messages cut = (cut.takeWhile isText).filterMap spelled? := by
  induction cut with
  | nil => rfl
  | cons line cut ih =>
      rw [messages_cons, List.takeWhile_cons, ih]
      split
      · cases hspelled : spelled? line with
        | none => simp [hspelled]
        | some message => simp [hspelled]
      · rfl

theorem foldl_enqueue (host : StdioHost) (found : List HostMessage) :
    found.foldl enqueue host = { host with queue := host.queue ++ found } := by
  induction found generalizing host with
  | nil => simp
  | cons message rest ih => simp [ih, enqueue]

theorem readLines_eq (host : StdioHost) (data : Bytes) :
    host.readLines data =
      { host with
        queue := host.queue ++ ((lines data).takeWhile isText).filterMap spelled? } := by
  rw [readLines, foldl_enqueue, messages_eq]

/-- Data has one cut into lines. Reading it queues the messages of the lines before the first one
that is not text, in order, and does nothing else. These are the messages of all lines if and only
if no message stands behind that line. -/
theorem readLines_until_garbled (host : StdioHost) (data : Bytes) :
    (∀ cut, Cuts data cut ↔ cut = lines data) ∧
      host.readLines data =
        { host with
          queue := host.queue ++ ((lines data).takeWhile isText).filterMap spelled? } ∧
      ((host.readLines data).queue = host.queue ++ (lines data).filterMap spelled? ↔
        ∀ line ∈ (lines data).dropWhile isText, spelled? line = none) := by
  refine ⟨fun cut => cuts_iff, readLines_eq host data, ?_⟩
  have hsplit : (lines data).filterMap spelled? =
      ((lines data).takeWhile isText).filterMap spelled? ++
        ((lines data).dropWhile isText).filterMap spelled? := by
    rw [← List.filterMap_append, List.takeWhile_append_dropWhile]
  rw [readLines_eq, hsplit, ← List.append_assoc, List.self_eq_append_right,
    List.filterMap_eq_nil_iff]

/-- A line that is no text, and a message behind it. -/
def garbled : Bytes := [0xFF, 0x0A] ++ "\x7b\"topic\":\"a\",\"payload\":\"00\"\x7d".toUTF8.toList

theorem not_every_line_read :
    ¬ ∀ (host : StdioHost) (data : Bytes),
        (host.readLines data).queue = host.queue ++ (lines data).filterMap spelled? := by
  intro hclaim
  have hall : (lines garbled).filterMap spelled? = [⟨"a", [0]⟩] := by decide +kernel
  have hread : (({ format := .json } : StdioHost).readLines garbled).queue = [] := by
    decide +kernel
  have hsame := hclaim { format := .json } garbled
  rw [hread, hall] at hsame
  cases hsame

end TopicBridge.StdioHost
