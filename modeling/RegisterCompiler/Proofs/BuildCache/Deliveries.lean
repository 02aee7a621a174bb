/-
What a build that was kept delivers.

As long as no two key texts have the same digest and kept images are read back as they were,
a cache that starts empty answers a call with the image of the first call for the same key
that was built.  The settings behind a key leave out whether the source is embedded, and an
image holds no warnings.  So an answer from the cache embeds the source if the first call
asked for it, and has no warnings, whatever the call itself would have delivered.
-/

import RegisterCompiler.Proofs.BuildCache.Histories
import RegisterCompiler.Proofs.Image.Builds

set_option autoImplicit false

namespace RegisterCompiler

open Text (Bytes)

namespace BuildCall

def outcome (call : BuildCall) : Except BuildFault Build :=
  build call.options call.id call.cancelled call.source

def serves (first call : BuildCall) : Bool :=
  first.keyBytes == call.keyBytes && first.outcome.toOption.isSome

def server? (calls : List BuildCall) (call : BuildCall) : Option BuildCall :=
  calls.find? (·.serves call)

/-- What is assumed of calls that share a cache: their key texts are told apart by their
digests, and what is built is read back as it was kept. -/
structure Separate (calls : List BuildCall) : Prop where
  digests : ∀ first ∈ calls, ∀ second ∈ calls,
    Digest.ofBytes first.keyBytes = Digest.ofBytes second.keyBytes →
      first.keyBytes = second.keyBytes
  reads : ∀ call ∈ calls, ∀ built, call.outcome = .ok built →
    Image.decode built.image.encode = .ok built.image

variable {calls : List BuildCall} {first call : BuildCall}

private theorem serves_iff : first.serves call = true ↔
    first.keyBytes = call.keyBytes ∧ ∃ built, first.outcome = .ok built := by
  rw [serves, Bool.and_eq_true, beq_iff_eq]
  refine and_congr_right fun _ => ⟨exists_of_isSome_toOption, ?_⟩
  rintro ⟨built, hBuilt⟩
  rw [hBuilt]
  rfl

private theorem mem_of_server? (hServer : server? calls call = some first) :
    first ∈ calls ∧ first.serves call = true := by
  unfold server? at hServer
  have hServes := List.find?_some hServer
  exact ⟨List.mem_of_find?_eq_some hServer, hServes⟩

private theorem server?_append (calls : List BuildCall) (last call : BuildCall) :
    server? (calls ++ [last]) call =
      (server? calls call).or (if last.serves call then some last else none) := by
  rw [server?, List.find?_append, List.find?_singleton]
  rfl

private theorem server?_congr (calls : List BuildCall) {call other : BuildCall}
    (hKey : call.keyBytes = other.keyBytes) : server? calls call = server? calls other := by
  unfold server? serves
  rw [hKey]

end BuildCall

namespace BuildCache

open BuildCall (Separate server? serves_iff server?_append server?_congr)

/-- A cache that keeps, for each of some calls, the image of the first earlier call that was
built under the same key. -/
structure Serves (cache : BuildCache) (earlier calls : List BuildCall) : Prop where
  isOpen : cache.isOpen = true
  absent : ∀ call ∈ calls, server? earlier call = none →
    cache.images.get? (call.options.key call.source) = none
  kept : ∀ call ∈ calls, ∀ first, server? earlier call = some first →
    ∃ kept built, cache.images.get? (call.options.key call.source) = some kept ∧
      first.outcome = .ok built ∧ kept.data = built.image.encode

variable {cache : BuildCache} {earlier calls : List BuildCall}

private theorem serves_empty (path : String) (calls : List BuildCall) :
    (empty path).Serves [] calls where
  isOpen := rfl
  absent := fun _ _ _ => rfl
  kept := fun _ _ _ hNone => by cases hNone

/-- What a cache that serves calls finds for one of them. -/
theorem Serves.get_of_server (hServes : cache.Serves earlier calls) (hSeparate : Separate calls)
    {call first : BuildCall} (hCall : call ∈ calls) (hEarlier : ∀ other ∈ earlier, other ∈ calls)
    (hServer : server? earlier call = some first) :
    ∃ built, first.outcome = .ok built ∧
      cache.get (call.options.key call.source) = .ok built.image := by
  obtain ⟨kept, built, hKept, hBuilt, hData⟩ := hServes.kept call hCall first hServer
  refine ⟨built, hBuilt, ?_⟩
  have hFirst := hEarlier first (BuildCall.mem_of_server? hServer).1
  rw [BuildCache.get, if_pos hServes.isOpen, hKept]
  simp only [hData, hSeparate.reads first hFirst built hBuilt]
  rfl

private theorem Serves.get_of_none (hServes : cache.Serves earlier calls) {call : BuildCall}
    (hCall : call ∈ calls) (hServer : server? earlier call = none) :
    cache.get (call.options.key call.source) = .error .miss := by
  rw [BuildCache.get, if_pos hServes.isOpen, hServes.absent call hCall hServer]

private theorem Serves.unchanged (hServes : cache.Serves earlier calls) {last : BuildCall}
    (hLast : ∀ call ∈ calls, server? earlier call = none → last.serves call = false) :
    cache.Serves (earlier ++ [last]) calls := by
  have hSame : ∀ call ∈ calls, server? (earlier ++ [last]) call = server? earlier call := by
    intro call hCall
    rw [server?_append]
    cases hServer : server? earlier call with
    | some first => rfl
    | none => rw [hLast call hCall hServer]; rfl
  refine ⟨hServes.isOpen, fun call hCall hNone => ?_, fun call hCall first hFirst => ?_⟩
  · exact hServes.absent call hCall (hSame call hCall ▸ hNone)
  · exact hServes.kept call hCall first (hSame call hCall ▸ hFirst)

/-- A new image serves the calls under its key and no others. -/
theorem Serves.put (hServes : cache.Serves earlier calls) (hSeparate : Separate calls)
    {last : BuildCall} (hLast : last ∈ calls) (hServer : server? earlier last = none)
    {built : Build} (hBuilt : last.outcome = .ok built) (now : Int) :
    ((cache.put now (last.options.key last.source) built.image).toOption.getD cache).Serves
      (earlier ++ [last]) calls := by
  rw [BuildCache.put, if_pos hServes.isOpen, Except.toOption, Option.getD_some]
  have hOther : ∀ call ∈ calls, call.keyBytes ≠ last.keyBytes →
      server? (earlier ++ [last]) call = server? earlier call ∧
      call.options.key call.source ≠ last.options.key last.source := by
    intro call hCall hKey
    have hServes : last.serves call = false := by
      rw [← Bool.not_eq_true, serves_iff]
      exact fun hBoth => hKey hBoth.1.symm
    refine ⟨?_, fun hText => hKey (hSeparate.digests call hCall last hLast
      (Digest.text_injective hText))⟩
    rw [server?_append, hServes]
    exact Option.or_none
  have hSame : ∀ call, call.keyBytes = last.keyBytes →
      server? (earlier ++ [last]) call = some last ∧
      call.options.key call.source = last.options.key last.source := by
    intro call hKey
    have hServes : last.serves call = true := serves_iff.mpr ⟨hKey.symm, built, hBuilt⟩
    refine ⟨?_, congrArg (fun bytes => (Digest.ofBytes bytes).text) hKey⟩
    rw [server?_append, server?_congr earlier hKey, hServer, hServes]
    rfl
  refine ⟨hServes.isOpen, fun call hCall hNone => ?_, fun call hCall first hFirst => ?_⟩
  · by_cases hKey : call.keyBytes = last.keyBytes
    · rw [(hSame call hKey).1] at hNone
      cases hNone
    · obtain ⟨hUnserved, hText⟩ := hOther call hCall hKey
      rw [OrderedMap.get?_set, if_neg hText]
      exact hServes.absent call hCall (hUnserved ▸ hNone)
  · by_cases hKey : call.keyBytes = last.keyBytes
    · obtain ⟨hLastServes, hText⟩ := hSame call hKey
      rw [hLastServes] at hFirst
      obtain rfl := Option.some.inj hFirst
      refine ⟨⟨built.image.encode, now⟩, built, ?_, hBuilt, rfl⟩
      rw [OrderedMap.get?_set, if_pos hText]
    · obtain ⟨hUnserved, hText⟩ := hOther call hCall hKey
      rw [OrderedMap.get?_set, if_neg hText]
      exact hServes.kept call hCall first (hUnserved ▸ hFirst)

private theorem Serves.answer (hServes : cache.Serves earlier calls) (hSeparate : Separate calls)
    (hEarlier : ∀ other ∈ earlier, other ∈ calls) {last : BuildCall} (hLast : last ∈ calls) :
    (cache.answer last).2.Serves (earlier ++ [last]) calls := by
  cases hServer : server? earlier last with
  | some first =>
      obtain ⟨built, -, hGet⟩ := hServes.get_of_server hSeparate hLast hEarlier hServer
      rw [answer_of_get hGet]
      refine hServes.unchanged fun call _ hNone => ?_
      rw [← Bool.not_eq_true, serves_iff]
      rintro ⟨hKey, -⟩
      rw [← server?_congr earlier hKey, hServer] at hNone
      cases hNone
  | none =>
      rw [answer_of_miss (hServes.get_of_none hLast hServer)]
      cases hOutcome : RegisterCompiler.build last.options last.id last.cancelled last.source with
      | error fault =>
          refine hServes.unchanged fun call _ _ => ?_
          rw [← Bool.not_eq_true, serves_iff]
          rintro ⟨-, built, hBuilt⟩
          rw [BuildCall.outcome, hOutcome] at hBuilt
          cases hBuilt
      | ok built =>
          exact hServes.put hSeparate hLast hServer hOutcome last.now

/-- After any calls a cache serves with the first that was built under each key. -/
theorem Serves.after (hServes : cache.Serves earlier calls) (hSeparate : Separate calls)
    (hEarlier : ∀ other ∈ earlier, other ∈ calls) {later : List BuildCall}
    (hLater : ∀ other ∈ later, other ∈ calls) : (cache.after later).Serves (earlier ++ later) calls := by
  induction later generalizing cache earlier with
  | nil => rwa [List.append_nil]
  | cons last later inductionHypothesis =>
      obtain ⟨hLast, hRest⟩ := List.forall_mem_cons.mp hLater
      rw [← List.singleton_append, ← List.append_assoc]
      refine inductionHypothesis (hServes.answer hSeparate hEarlier hLast) ?_ hRest
      intro other hOther
      rcases List.mem_append.mp hOther with hOld | hNew
      · exact hEarlier other hOld
      · rwa [List.mem_singleton.mp hNew]

/-! ### Answers -/

theorem source_ne_nil_of_outcome {call : BuildCall} {built : Build}
    (hBuilt : call.outcome = .ok built) : call.source ≠ [] := by
  intro hEmpty
  have hNone : (check []).toOption.isSome = false := by decide +kernel
  obtain ⟨checked, code, hCheck, -⟩ := image_of_build hBuilt
  rw [hEmpty] at hCheck
  rw [hCheck] at hNone
  cases hNone

/-- An answer from the cache embeds the source if the first call that was built under the key
asked for it, and has no warnings.  It is what the call gives without a cache, but for the
placements, exactly if both calls agree on embedding the source and the source gives no
warnings. -/
theorem cached_answer_delivers (path : String) (earlier : List BuildCall) (call : BuildCall)
    (hBases : ∀ other ∈ call :: earlier,
      other.options.generator.layout.oversizedBase.isSome = true)
    (hSeparate : Separate (call :: earlier)) {answer : Build}
    (hAnswer : (((empty path).after earlier).answer call).1 = .ok answer)
    (hCached : answer.cached = true) :
    ∃ first built, server? earlier call = some first ∧ call.uncached = .ok built ∧
      answer.image.source = (if first.options.includeSource then call.source else []) ∧
      answer.warnings = [] ∧
      (answer.image.source = built.image.source ∧ answer.warnings = built.warnings ↔
        first.options.includeSource = call.options.includeSource ∧ built.warnings = []) := by
  have hEarlier : ∀ other ∈ earlier, other ∈ call :: earlier :=
    fun other hOther => List.mem_cons_of_mem _ hOther
  have hServes : ((empty path).after earlier).Serves earlier (call :: earlier) :=
    (serves_empty path _).after hSeparate (fun _ hNone => absurd hNone List.not_mem_nil) hEarlier
  cases hServer : server? earlier call with
  | none =>
      -- Without an image under the key the call is built, and no new build is a cached one.
      rw [answer_of_miss (hServes.get_of_none List.mem_cons_self hServer)] at hAnswer
      cases hOutcome : RegisterCompiler.build call.options call.id call.cancelled call.source with
      | error fault =>
          rw [hOutcome] at hAnswer
          cases hAnswer
      | ok built =>
          rw [hOutcome] at hAnswer
          obtain ⟨_, _, -, -, hNew, -⟩ := image_of_build hOutcome
          rw [Except.ok.inj hAnswer, hCached] at hNew
          cases hNew
  | some first =>
      obtain ⟨kept, hKept, hGet⟩ :=
        hServes.get_of_server hSeparate List.mem_cons_self hEarlier hServer
      rw [answer_of_get hGet] at hAnswer
      obtain ⟨hMem, hFirstServes⟩ := BuildCall.mem_of_server? hServer
      have hKey : first.keyBytes = call.keyBytes := (serves_iff.mp hFirstServes).1
      have hFirst := hBases first (List.mem_cons_of_mem _ hMem)
      have hCall := hBases call List.mem_cons_self
      obtain ⟨hSource, -, -⟩ := BuildOptions.eq_of_keyBytes_eq hFirst hCall hKey
      have hCore := BuildCall.uncached_core_eq hFirst hCall hKey
      have hFirstUncached : first.uncached = .ok kept := build_of_ok hKept
      obtain ⟨built, hBuilt⟩ : ∃ built, call.uncached = .ok built := by
        rw [hFirstUncached] at hCore
        cases hUncached : call.uncached with
        | error fault =>
            rw [hUncached] at hCore
            cases hCore
        | ok built => exact ⟨built, rfl⟩
      obtain ⟨_, _, -, -, -, hKeptImage, -⟩ := image_of_build hKept
      obtain ⟨_, _, -, -, -, hBuiltImage, -⟩ := image_of_build hBuilt
      have hSome : call.source ≠ [] := hSource ▸ source_ne_nil_of_outcome hKept
      have hAnswerSource : answer.image.source =
          if first.options.includeSource then call.source else [] := by
        rw [← Except.ok.inj hAnswer, hKeptImage, ← hSource]
      have hBuiltSource : built.image.source =
          if call.options.includeSource then call.source else [] := by
        rw [hBuiltImage]
      have hWarnings : answer.warnings = [] := by rw [← Except.ok.inj hAnswer]
      refine ⟨first, built, rfl, hBuilt, hAnswerSource, hWarnings, ?_⟩
      rw [hAnswerSource, hBuiltSource, hWarnings]
      refine and_congr ?_ eq_comm
      cases first.options.includeSource <;> cases call.options.includeSource <;>
        simp [hSome, Ne.symm hSome]

/-- A second call under the key of the first gets what the first one built. -/
theorem answer_of_repeated (path : String) {first call : BuildCall}
    (hKey : first.keyBytes = call.keyBytes) {built : Build} (hBuilt : first.outcome = .ok built)
    (hReads : Image.decode built.image.encode = .ok built.image) :
    (((empty path).after [first]).answer call).1 = .ok ⟨built.image, none, [], true⟩ := by
  have hText : call.options.key call.source = first.options.key first.source :=
    congrArg (fun bytes => (Digest.ofBytes bytes).text) hKey.symm
  have hFirst : (empty path).after [first] =
      ((empty path).put first.now (first.options.key first.source) built.image).toOption.getD
        (empty path) := by
    have hMiss : (empty path).get (first.options.key first.source) = .error .miss := rfl
    rw [BuildCall.outcome] at hBuilt
    rw [after, List.foldl_cons, List.foldl_nil, answer_of_miss hMiss, hBuilt]
  have hGet : ((empty path).after [first]).get (call.options.key call.source) = .ok built.image := by
    have hOpen : (empty path).isOpen = true := rfl
    rw [hFirst, hText, BuildCache.put, if_pos hOpen, Except.toOption, Option.getD_some,
      BuildCache.get, if_pos hOpen, OrderedMap.get?_set, if_pos rfl]
    simp only [hReads]
    rfl
  rw [answer_of_get hGet]

/-- A program without warnings that is built twice with the same options is delivered as it
was. -/
theorem echo_cached_answer_delivers :
    ∃ answer built, (((empty "kept").after [echoCall]).answer echoCall).1 = .ok answer ∧
      answer.cached = true ∧ echoCall.uncached = .ok built ∧
      answer.image.source = built.image.source ∧ answer.warnings = built.warnings := by
  obtain ⟨built, hBuilt, hReads, hWarnings⟩ :
      ∃ built, echoCall.uncached = .ok built ∧
        Image.decode built.image.encode = .ok built.image ∧ built.warnings = [] := by
    obtain ⟨built, hBuilt, hView⟩ := exists_of_map_toOption (by decide +kernel :
      echoCall.uncached.toOption.map (fun built => decide
        (Image.decode built.image.encode = .ok built.image ∧ built.warnings = [])) = some true)
    exact ⟨built, hBuilt, of_decide_eq_true hView⟩
  have hKey : echoCall.keyBytes = echoCall.keyBytes := rfl
  have hAnswer := answer_of_repeated "kept" hKey hBuilt hReads
  have hSeparate : Separate [echoCall, echoCall] := by
    refine ⟨fun one hOne other hOther _ => ?_, fun one hOne found hFound => ?_⟩
    · rw [List.eq_of_mem_replicate (n := 2) hOne, List.eq_of_mem_replicate (n := 2) hOther]
    · rw [List.eq_of_mem_replicate (n := 2) hOne] at hFound
      rw [← Except.ok.inj (hBuilt.symm.trans hFound)]
      exact hReads
  obtain ⟨first, other, hServer, hOther, -, -, hAgrees⟩ :=
    cached_answer_delivers "kept" [echoCall] echoCall (by decide) hSeparate hAnswer rfl
  obtain rfl := Except.ok.inj (hBuilt.symm.trans hOther)
  obtain rfl := List.mem_singleton.mp (BuildCall.mem_of_server? hServer).1
  exact ⟨⟨built.image, none, [], true⟩, built, hAnswer, rfl, hBuilt, hAgrees.mpr ⟨rfl, hWarnings⟩⟩

def unassignedCall (includeSource : Bool) : BuildCall :=
  ⟨0, { BuildOptions.standard with includeSource := includeSource }, "unassigned", false,
    Text.encode "VAR a b BEGIN WRITE b; a := 1; END"⟩

/-- Built first without its source and then with it, the program is answered from the cache
without the source and without the warning that a build gives. -/
theorem unassigned_cached_answer_differs :
    ∃ answer built,
      (((empty "kept").after [unassignedCall false]).answer (unassignedCall true)).1 = .ok answer ∧
      answer.cached = true ∧ (unassignedCall true).uncached = .ok built ∧
      answer.image.source ≠ built.image.source ∧ answer.warnings ≠ built.warnings := by
  obtain ⟨kept, hKept, hView⟩ := exists_of_map_toOption (by decide +kernel :
    (unassignedCall false).outcome.toOption.map (fun kept => decide
      (Image.decode kept.image.encode = .ok kept.image ∧ kept.image.source = [])) = some true)
  obtain ⟨hReads, hSource⟩ := of_decide_eq_true hView
  obtain ⟨built, hBuilt, hOther⟩ := exists_of_map_toOption (by decide +kernel :
    (unassignedCall true).uncached.toOption.map (fun built => decide
      ([] ≠ built.image.source ∧ [] ≠ built.warnings)) = some true)
  obtain ⟨hSome, hWarned⟩ := of_decide_eq_true hOther
  have hKey : (unassignedCall false).keyBytes = (unassignedCall true).keyBytes := rfl
  have hAnswer := answer_of_repeated "kept" hKey hKept hReads
  refine ⟨⟨kept.image, none, [], true⟩, built, hAnswer, rfl, hBuilt, ?_, hWarned⟩
  rw [hSource]
  exact hSome

end BuildCache

end RegisterCompiler
