/-
Device topics, their texts and the filters for one stream of every device.
All three are the same three levels (`parse?_eq_some_iff`,
`filterMatches_wildcard_iff`), so a text is a topic of a stream exactly if the
filter for that stream is for it and its middle level can be an id.
-/
import FlowScript.Channel.Topic
import FlowScript.Proofs.Levels

namespace FlowScript.Channel

theorem isPlainLevel_iff {s : String} :
    isPlainLevel s = true ↔ s ≠ "" ∧ '/' ∉ s.toList ∧ '+' ∉ s.toList ∧ '#' ∉ s.toList := by
  have hchars : (∀ c ∈ s.toList, c ≠ '/' ∧ c ≠ '+' ∧ c ≠ '#') ↔
      '/' ∉ s.toList ∧ '+' ∉ s.toList ∧ '#' ∉ s.toList := by
    constructor
    · intro h
      exact ⟨fun hm => (h _ hm).1 rfl, fun hm => (h _ hm).2.1 rfl, fun hm => (h _ hm).2.2 rfl⟩
    · rintro ⟨hslash, hplus, hsign⟩ c hc
      exact ⟨fun e => hslash (e ▸ hc), fun e => hplus (e ▸ hc), fun e => hsign (e ▸ hc)⟩
  simp only [isPlainLevel, Bool.and_eq_true, Bool.not_eq_true', String.isEmpty_eq_false_iff, List.all_eq_true,
    bne_iff_ne, and_assoc, hchars]

namespace Stream

theorem name_injective {stream stream' : Stream} (h : stream.name = stream'.name) : stream = stream' := by
  have hfind := ofName?_name stream
  rw [h, ofName?_name, Option.some.injEq] at hfind
  exact hfind.symm

theorem ofName?_eq_some_iff {s : String} {stream : Stream} : ofName? s = some stream ↔ s = stream.name := by
  constructor
  · intro h
    have hname := List.find?_some h
    rw [beq_iff_eq] at hname
    exact hname.symm
  · rintro rfl
    exact ofName?_name stream

theorem slash_not_mem_name (stream : Stream) : '/' ∉ stream.name.toList := by
  cases stream <;> decide

theorem name_ne_sign (stream : Stream) : stream.name ≠ "+" ∧ stream.name ≠ "#" := by
  cases stream <;> decide

end Stream

theorem slash_not_mem_deviceRoot : '/' ∉ deviceRoot.toList := by decide

/-- Three texts without slashes are the levels of what they are put together to. -/
theorem levels_three {root middle last : String} (hroot : '/' ∉ root.toList)
    (hmiddle : '/' ∉ middle.toList) (hlast : '/' ∉ last.toList) :
    levels (root ++ "/" ++ middle ++ "/" ++ last) = [root, middle, last] := by
  rw [levels_append_slash, levels_append_slash, levels_of_slash_free hroot, levels_of_slash_free hmiddle,
    levels_of_slash_free hlast]
  rfl

namespace DeviceTopic

variable {s deviceId : String} {stream : Stream} {d : DeviceTopic}

theorem make?_eq_some_iff :
    make? deviceId stream = some d ↔ d.deviceId = deviceId ∧ d.stream = stream := by
  unfold make?
  split
  next plain =>
    obtain ⟨id, kind, _⟩ := d
    simp only [Option.some.injEq, mk.injEq]
    exact and_congr eq_comm eq_comm
  next hplain =>
    simp only [reduceCtorEq, false_iff, not_and]
    rintro rfl
    exact absurd d.plain hplain

theorem make?_isSome_iff : (make? deviceId stream).isSome = true ↔
    deviceId ≠ "" ∧ '/' ∉ deviceId.toList ∧ '+' ∉ deviceId.toList ∧ '#' ∉ deviceId.toList := by
  rw [← isPlainLevel_iff]
  unfold make?
  split <;> simp_all

theorem levels_text (d : DeviceTopic) : levels d.text = [deviceRoot, d.deviceId, d.stream.name] :=
  levels_three slash_not_mem_deviceRoot (isPlainLevel_iff.1 d.plain).2.1 d.stream.slash_not_mem_name

/-- A text is read as a topic exactly if its levels are those of the topic. -/
theorem parse?_eq_some_iff : parse? s = some d ↔ levels s = [deviceRoot, d.deviceId, d.stream.name] := by
  unfold parse?
  split
  next root device stream hlevels =>
    rw [hlevels]
    split
    next hroot =>
      simp only [Option.bind_eq_some_iff, Stream.ofName?_eq_some_iff, make?_eq_some_iff, List.cons.injEq,
        hroot, and_true, true_and]
      constructor
      · rintro ⟨_, rfl, hdevice, rfl⟩
        exact ⟨hdevice.symm, rfl⟩
      · rintro ⟨rfl, rfl⟩
        exact ⟨_, rfl, rfl, rfl⟩
    next hroot => simp [hroot]
  next hlevels =>
    simp only [reduceCtorEq, false_iff]
    exact hlevels _ _ _

theorem parse?_text (d : DeviceTopic) : parse? d.text = some d := parse?_eq_some_iff.2 d.levels_text

theorem text_of_parse? (h : parse? s = some d) : d.text = s :=
  levels_injective (d.levels_text.trans (parse?_eq_some_iff.1 h).symm)

end DeviceTopic

theorem levels_wildcard (stream : Stream) : levels stream.wildcard = [deviceRoot, "+", stream.name] := by
  have hlead : deviceRoot ++ "/+/" = deviceRoot ++ "/" ++ "+" ++ "/" := by decide
  rw [Stream.wildcard, hlead]
  exact levels_three slash_not_mem_deviceRoot (by decide) stream.slash_not_mem_name

/-- The filter for a stream is for what has the levels of its topics, with any
text in the middle. -/
theorem filterMatches_wildcard_iff {stream : Stream} {s : String} :
    filterMatches stream.wildcard s = true ↔ ∃ middle, levels s = [deviceRoot, middle, stream.name] := by
  have hroot : deviceRoot ≠ "#" ∧ deviceRoot ≠ "+" := by decide
  obtain ⟨hplus, hsign⟩ := stream.name_ne_sign
  have hnone : "#" ∉ levels stream.wildcard := by
    rw [levels_wildcard]
    simp [hroot.1.symm, hsign.symm]
  rw [filterMatches_iff, or_iff_left fun h => hnone h.sign_mem]
  constructor
  · rintro ⟨-, heach⟩
    rw [levels_wildcard] at heach
    simp only [List.forall₂_cons_left_iff, List.forall₂_nil_left_iff] at heach
    obtain ⟨_, _, hfirst, ⟨middle, _, -, ⟨_, _, hlast, rfl, rfl⟩, rfl⟩, hlevels⟩ := heach
    exact ⟨middle, by rw [hlevels, hfirst.resolve_left hroot.2, hlast.resolve_left hplus]⟩
  · rintro ⟨middle, hlevels⟩
    refine ⟨hnone, ?_⟩
    rw [levels_wildcard, hlevels]
    exact .cons (.inr rfl) (.cons (.inl rfl) (.cons (.inr rfl) .nil))

open DeviceTopic in
/-- The topics of devices are their texts: every id that is not empty and has
no slash, plus or number sign makes a topic, and reading its text gives the
topic back; what is read has the text that it was read from and an id that
makes a topic. A text is read as a topic of a stream exactly if the filter for
that stream is for it and its middle level is not empty and has neither plus
nor number sign; and of the filters for streams just the one for its own is
for the text of a topic. -/
theorem deviceTopics_agree :
    (∀ deviceId stream, (make? deviceId stream).isSome = true ↔
      deviceId ≠ "" ∧ '/' ∉ deviceId.toList ∧ '+' ∉ deviceId.toList ∧ '#' ∉ deviceId.toList) ∧
    (∀ deviceId stream d, make? deviceId stream = some d →
      d.deviceId = deviceId ∧ d.stream = stream ∧ parse? d.text = some d) ∧
    (∀ s d, parse? s = some d → d.text = s ∧ make? d.deviceId d.stream = some d) ∧
    (∀ s stream, (∃ d, parse? s = some d ∧ d.stream = stream) ↔
      filterMatches stream.wildcard s = true ∧ ∃ root middle last, levels s = [root, middle, last] ∧
        middle ≠ "" ∧ '+' ∉ middle.toList ∧ '#' ∉ middle.toList) ∧
    (∀ (d : DeviceTopic) stream, filterMatches stream.wildcard d.text = true ↔ d.stream = stream) := by
  refine ⟨fun _ _ => make?_isSome_iff, fun deviceId stream d h => ?_, fun s d h => ?_, fun s stream => ?_,
    fun d stream => ?_⟩
  · obtain ⟨hid, hstream⟩ := make?_eq_some_iff.1 h
    exact ⟨hid, hstream, parse?_text d⟩
  · exact ⟨text_of_parse? h, make?_eq_some_iff.2 ⟨rfl, rfl⟩⟩
  · rw [filterMatches_wildcard_iff]
    constructor
    · rintro ⟨d, hd, rfl⟩
      have hlevels := parse?_eq_some_iff.1 hd
      obtain ⟨hne, -, hplus, hsign⟩ := isPlainLevel_iff.1 d.plain
      exact ⟨⟨_, hlevels⟩, _, _, _, hlevels, hne, hplus, hsign⟩
    · rintro ⟨⟨middle, hlevels⟩, _, _, _, hparts, hne, hplus, hsign⟩
      rw [hlevels, List.cons.injEq, List.cons.injEq] at hparts
      obtain ⟨-, rfl, -⟩ := hparts
      -- What stands between slashes has none.
      have hslash : '/' ∉ middle.toList := slash_not_mem_of_mem_levels (s := s) (by simp [hlevels])
      have plain := isPlainLevel_iff.2 ⟨hne, hslash, hplus, hsign⟩
      exact ⟨⟨middle, stream, plain⟩, parse?_eq_some_iff.2 hlevels, rfl⟩
  · rw [filterMatches_wildcard_iff, d.levels_text]
    constructor
    · rintro ⟨middle, h⟩
      simp only [List.cons.injEq, and_true, true_and] at h
      exact Stream.name_injective h.2
    · rintro rfl
      exact ⟨_, rfl⟩

/-- A blank is no sign, so an id may be one. -/
theorem deviceTopics_agree_blank : ∃ d, DeviceTopic.make? " " .status = some d ∧
    DeviceTopic.parse? d.text = some d ∧ d.text = "devices/ /status" ∧
    filterMatches Stream.heartbeat.wildcard d.text = false := by
  obtain ⟨hmake, hread, -, -, hfilter⟩ := deviceTopics_agree
  obtain ⟨d, hd⟩ := Option.isSome_iff_exists.1 ((hmake " " .status).2 (by decide))
  obtain ⟨hid, hstream, hparse⟩ := hread " " .status d hd
  refine ⟨d, hd, hparse, ?_, ?_⟩
  · rw [DeviceTopic.text, hid, hstream]
    decide
  · rw [Bool.eq_false_iff, ne_eq, hfilter, hstream]
    decide

end FlowScript.Channel
