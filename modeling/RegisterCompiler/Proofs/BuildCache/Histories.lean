/-
Builds that share a cache.

A cache that starts empty holds, after any calls, only images that were built for the
source and the settings of one of these calls.  As long as no two of the key texts have
the same digest, and a kept image that can be read is the image that was kept, a build
that is answered from the cache has the code of a build without a cache, and what cannot
be built is never answered.
-/

import RegisterCompiler.Proofs.BuildCache.Keys
import RegisterCompiler.Proofs.Store.OrderedMap

set_option autoImplicit false

namespace RegisterCompiler

open Text (Bytes)

/-! ### Builds without a cache -/

def Build.core (built : Build) : Option (List Instruction) × Int :=
  (built.image.code, built.image.registers)

/-- Neither the id of a build nor whether it keeps its source has to do with its code. -/
theorem build_core_eq {first second : BuildOptions} (hGenerator : first.generator = second.generator)
    (hSimplify : first.simplify = second.simplify) (id other : String) (source : Bytes) :
    (build first id false source).map Build.core = (build second other false source).map Build.core := by
  have hPrepare : first.prepare = second.prepare := by
    funext program
    rw [BuildOptions.prepare, BuildOptions.prepare, hSimplify]
  unfold build
  cases hCheck : check source with
  | error fault => rfl
  | ok checked =>
      simp only [bind, Except.bind, Bool.false_eq_true, if_false, hGenerator, hPrepare]
      cases hCode : generateCode second.generator (second.prepare checked.program) with
      | error fault => rfl
      | ok generated =>
          simp only [Image.ofListing]
          cases hDecode : generated.listing.decode with
          | error fault => rfl
          | ok code => rfl

theorem build_of_ok {options : BuildOptions} {id : String} {cancelled : Bool} {source : Bytes}
    {built : Build} (hBuild : build options id cancelled source = .ok built) :
    build options id false source = .ok built := by
  obtain ⟨rfl, -⟩ := exists_of_build_eq_ok hBuild
  exact hBuild

/-! ### Calls -/

structure BuildCall where
  now : Int
  options : BuildOptions
  id : String
  cancelled : Bool
  source : Bytes
deriving Repr

namespace BuildCall

def keyBytes (call : BuildCall) : Bytes :=
  call.options.keyBytes call.source

/-- What a call gives without a cache, if it is not cancelled. -/
def uncached (call : BuildCall) : Except BuildFault Build :=
  build call.options call.id false call.source

theorem uncached_core_eq {first second : BuildCall}
    (hFirst : first.options.generator.layout.oversizedBase.isSome = true)
    (hSecond : second.options.generator.layout.oversizedBase.isSome = true)
    (hSame : first.keyBytes = second.keyBytes) :
    first.uncached.map Build.core = second.uncached.map Build.core := by
  obtain ⟨hSource, hGenerator, hSimplify⟩ :=
    BuildOptions.eq_of_keyBytes_eq hFirst hSecond hSame
  unfold uncached
  rw [hSource]
  exact build_core_eq hGenerator hSimplify _ _ _

end BuildCall

namespace BuildCache

def answer (cache : BuildCache) (call : BuildCall) : Except BuildFault Build × BuildCache :=
  cache.build call.now call.options call.id call.cancelled call.source

def after (cache : BuildCache) (calls : List BuildCall) : BuildCache :=
  calls.foldl (fun found call => (found.answer call).2) cache

theorem answer_of_get {cache : BuildCache} {call : BuildCall} {image : Image}
    (hGet : cache.get (call.options.key call.source) = .ok image) :
    cache.answer call = (.ok ⟨image, none, [], true⟩, cache) := by
  simp only [answer, build, hGet]

theorem answer_of_miss {cache : BuildCache} {call : BuildCall} {fault : CacheFault}
    (hGet : cache.get (call.options.key call.source) = .error fault) :
    cache.answer call =
      match RegisterCompiler.build call.options call.id call.cancelled call.source with
      | .error fault => (.error fault, cache)
      | .ok built => (.ok built, (cache.put call.now (call.options.key call.source)
          built.image).toOption.getD cache) := by
  unfold answer build
  dsimp only
  split
  · rename_i image hFound
    cases hFound.symm.trans hGet
  · rfl

/-! ### What a cache holds -/

/-- Everything kept was built for one of the calls, and is kept under its key. -/
def Stems (cache : BuildCache) (calls : List BuildCall) : Prop :=
  ∀ key kept, cache.images.get? key = some kept →
    ∃ call ∈ calls, key = (Digest.ofBytes call.keyBytes).text ∧
      ∃ built, call.uncached = .ok built ∧ kept.data = built.image.encode

private theorem stems_empty (path : String) : (empty path).Stems [] := by
  intro key kept hKept
  rw [show (empty path).images.get? key = none from rfl] at hKept
  contradiction

private theorem Stems.mono {cache : BuildCache} {calls more : List BuildCall}
    (hStems : cache.Stems calls) (hMore : ∀ call ∈ calls, call ∈ more) : cache.Stems more := by
  intro key kept hKept
  obtain ⟨call, hCall, hBuilt⟩ := hStems key kept hKept
  exact ⟨call, hMore call hCall, hBuilt⟩

private theorem Stems.put {cache : BuildCache} {calls : List BuildCall} (hStems : cache.Stems calls)
    {call : BuildCall} (hCall : call ∈ calls) {built : Build} (hBuilt : call.uncached = .ok built)
    (now : Int) :
    ((cache.put now (call.options.key call.source) built.image).toOption.getD cache).Stems calls := by
  unfold BuildCache.put
  split
  · intro key kept hKept
    simp only [Except.toOption, Option.getD_some, OrderedMap.get?_set] at hKept
    split at hKept
    · rename_i hKey
      obtain rfl := Option.some.inj hKept
      exact ⟨call, hCall, hKey, built, hBuilt, rfl⟩
    · exact hStems key kept hKept
  · exact hStems

private theorem Stems.answer {cache : BuildCache} {calls : List BuildCall}
    (hStems : cache.Stems calls) {call : BuildCall} (hCall : call ∈ calls) :
    (cache.answer call).2.Stems calls := by
  cases hGet : cache.get (call.options.key call.source) with
  | ok image =>
      rw [answer_of_get hGet]
      exact hStems
  | error fault =>
      rw [answer_of_miss hGet]
      cases hBuild : RegisterCompiler.build call.options call.id call.cancelled call.source with
      | error fault => exact hStems
      | ok built => exact hStems.put hCall (build_of_ok hBuild) call.now

private theorem Stems.after {cache : BuildCache} {calls : List BuildCall}
    (hStems : cache.Stems calls) {more : List BuildCall} (hMore : ∀ call ∈ more, call ∈ calls) :
    (cache.after more).Stems calls := by
  induction more generalizing cache with
  | nil => exact hStems
  | cons call more inductionHypothesis =>
      exact inductionHypothesis (hStems.answer (hMore call List.mem_cons_self))
        fun later hLater => hMore later (List.mem_cons_of_mem _ hLater)

/-! ### Answers -/

/-- An answer from a cache has the code of the build without one. -/
theorem Stems.core_of_get {cache : BuildCache} {calls : List BuildCall} (hStems : cache.Stems calls)
    {call : BuildCall} {image : Image}
    (hGet : cache.get (call.options.key call.source) = .ok image)
    (hBases : ∀ other ∈ call :: calls, other.options.generator.layout.oversizedBase.isSome = true)
    (hDigests : ∀ other ∈ calls,
      Digest.ofBytes call.keyBytes = Digest.ofBytes other.keyBytes → call.keyBytes = other.keyBytes)
    (hReads : ∀ other ∈ calls, ∀ built, other.uncached = .ok built →
      ∀ found, Image.decode built.image.encode = .ok found → found = built.image) :
    call.uncached.map Build.core = .ok (image.code, image.registers) := by
  unfold BuildCache.get at hGet
  split at hGet
  · cases hKept : cache.images.get? (call.options.key call.source) with
    | none =>
        rw [hKept] at hGet
        cases hGet
    | some kept =>
        rw [hKept] at hGet
        obtain ⟨other, hOther, hKey, built, hBuilt, hData⟩ := hStems _ _ hKept
        have hSame : call.keyBytes = other.keyBytes :=
          hDigests other hOther (Digest.text_injective hKey)
        have hImage : image = built.image := by
          refine hReads other hOther built hBuilt image ?_
          rw [← hData]
          cases hDecode : Image.decode kept.data with
          | error fault =>
              simp only [hDecode] at hGet
              cases hGet
          | ok found =>
              simp only [hDecode] at hGet
              rw [Except.ok.inj hGet]
        rw [BuildCall.uncached_core_eq (hBases call List.mem_cons_self)
          (hBases other (List.mem_cons_of_mem _ hOther)) hSame, hBuilt, hImage]
        rfl
  · cases hGet

/-- After any calls that shared a cache, the next call gives what it gives without the
cache: an answer has the code and the registers of the build without one, and if there is
no such build, there is no answer.  It rests on the key texts, which determine the source
and the settings. -/
theorem answer_agrees (path : String) (earlier : List BuildCall) (call : BuildCall)
    (hBases : ∀ other ∈ call :: earlier,
      other.options.generator.layout.oversizedBase.isSome = true)
    (hDigests : ∀ other ∈ earlier,
      Digest.ofBytes call.keyBytes = Digest.ofBytes other.keyBytes → call.keyBytes = other.keyBytes)
    (hReads : ∀ other ∈ earlier, ∀ built, other.uncached = .ok built →
      ∀ found, Image.decode built.image.encode = .ok found → found = built.image) :
    let result := (((empty path).after earlier).answer call).1
    (∀ other ∈ earlier, call.keyBytes = other.keyBytes → call.source = other.source ∧
      call.options.generator = other.options.generator ∧
      call.options.simplify = other.options.simplify) ∧
    (∀ answer, result = .ok answer → ∃ built, call.uncached = .ok built ∧
      answer.image.code = built.image.code ∧ answer.image.registers = built.image.registers) ∧
    ∀ fault, call.uncached = .error fault → ∃ other, result = .error other := by
  have hStems : ((empty path).after earlier).Stems earlier :=
    ((stems_empty path).mono fun _ hNone => absurd hNone List.not_mem_nil).after fun _ hCall => hCall
  refine ⟨fun other hOther hSame => BuildOptions.eq_of_keyBytes_eq
    (hBases call List.mem_cons_self) (hBases other (List.mem_cons_of_mem _ hOther)) hSame, ?_⟩
  cases hGet : ((empty path).after earlier).get (call.options.key call.source) with
  | ok image =>
      have hCore := hStems.core_of_get hGet hBases hDigests hReads
      rw [answer_of_get hGet]
      cases hUncached : call.uncached with
      | error fault =>
          rw [hUncached] at hCore
          cases hCore
      | ok built =>
          rw [hUncached] at hCore
          obtain ⟨hCode, hRegisters⟩ := Prod.ext_iff.mp (Except.ok.inj hCore)
          refine ⟨fun answer hAnswer => ⟨built, rfl, ?_⟩, fun fault hFault => by cases hFault⟩
          rw [← Except.ok.inj hAnswer]
          exact ⟨hCode.symm, hRegisters.symm⟩
  | error absent =>
      rw [answer_of_miss hGet]
      cases hBuild : RegisterCompiler.build call.options call.id call.cancelled call.source with
      | error fault => exact ⟨fun _ hAnswer => (nomatch hAnswer), fun _ _ => ⟨fault, rfl⟩⟩
      | ok built =>
          have hUncached : call.uncached = .ok built := build_of_ok hBuild
          refine ⟨fun answer hAnswer => ⟨built, hUncached, ?_⟩, fun fault hFault => ?_⟩
          · rw [← Except.ok.inj hAnswer]
            exact ⟨rfl, rfl⟩
          · rw [hUncached] at hFault
            cases hFault

private theorem exists_of_cached {result : Except BuildFault Build}
    (hCached : result.toOption.map Build.cached = some true) :
    ∃ answer, result = .ok answer ∧ answer.cached = true := by
  cases result with
  | error fault => contradiction
  | ok answer => exact ⟨answer, rfl, Option.some.inj hCached⟩

private theorem eq_of_decode {result : Except BuildFault Build}
    (hReads : (result.toOption.bind fun built => (Image.decode built.image.encode).toOption) =
      result.toOption.map Build.image) {built : Build} (hBuilt : result = .ok built) {found : Image}
    (hFound : Image.decode built.image.encode = .ok found) : found = built.image := by
  rw [hBuilt] at hReads
  simp only [Except.toOption, Option.bind_some, Option.map_some, hFound] at hReads
  exact Option.some.inj hReads

def echoCall : BuildCall :=
  ⟨0, .standard, "echo", false, Text.encode "VAR n BEGIN READ n; WRITE n; END"⟩

/-- A call made twice is answered from the cache the second time. -/
theorem echo_answer_agrees :
    ∃ answer built, (((empty "kept").after [echoCall]).answer echoCall).1 = .ok answer ∧
      answer.cached = true ∧ echoCall.uncached = .ok built ∧
      answer.image.code = built.image.code ∧ answer.image.registers = built.image.registers := by
  obtain ⟨answer, hAnswer, hCached⟩ :
      ∃ answer, (((empty "kept").after [echoCall]).answer echoCall).1 = .ok answer ∧
        answer.cached = true := exists_of_cached (by decide +kernel)
  have hBases : ∀ other ∈ [echoCall, echoCall],
      other.options.generator.layout.oversizedBase.isSome = true := by
    decide
  have hReads : ∀ other ∈ [echoCall], ∀ built, other.uncached = .ok built →
      ∀ found, Image.decode built.image.encode = .ok found → found = built.image := by
    intro other hOther built hBuilt found hFound
    rw [List.mem_singleton.mp hOther] at hBuilt
    exact eq_of_decode (by decide +kernel) hBuilt hFound
  obtain ⟨-, hAgrees, -⟩ := answer_agrees "kept" [echoCall] echoCall hBases
    (fun other hOther _ => by rw [List.mem_singleton.mp hOther]) hReads
  obtain ⟨built, hBuilt, hSame⟩ := hAgrees answer hAnswer
  exact ⟨answer, built, hAnswer, hCached, hBuilt, hSame⟩

end BuildCache

end RegisterCompiler
