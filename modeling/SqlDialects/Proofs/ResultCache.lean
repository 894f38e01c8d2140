import SqlDialects.Service.Http
import SqlDialects.Proofs.Reload

/-! The cache of results. Orders with the same key have the same result: names of dialects count up to case there,
and dropping the blanks around a name does not depend on its case. As long as every result in the cache is what the
rules in force make of the orders with its key, a service answers as one without a cache does. -/

namespace SqlDialects

/-! ### Names up to case -/

namespace Text

/-- The code points of blanks, from first to last. -/
private def blankRanges : List (Nat × Nat) :=
  [(9, 13), (0x20, 0x20), (0x85, 0x85), (0xa0, 0xa0), (0x1680, 0x1680), (0x2000, 0x200a), (0x2028, 0x2029),
    (0x202f, 0x202f), (0x205f, 0x205f), (0x3000, 0x3000)]

private theorem isBlank_iff (c : Char) :
    isBlank c = true ↔ ∃ range ∈ blankRanges, range.1 ≤ c.toNat ∧ c.toNat ≤ range.2 := by
  simp [isBlank, blankRanges]
  omega

private theorem lowerRuns_apart : ∀ run ∈ lowerRuns, ∀ range ∈ blankRanges,
    (range.2 < run.first ∨ run.last < range.1) ∧
      ((range.2 : Int) < run.first + run.shift ∨ run.last + run.shift < (range.1 : Int)) := by
  decide +kernel

private theorem isBlank_shiftBy (c : Char) : isBlank (shiftBy lowerRuns c) = isBlank c := by
  unfold shiftBy
  cases found : lowerRuns.find? (·.covers c.toNat) with
  | none => rfl
  | some run =>
    have member := List.mem_of_find?_eq_some found
    have covered := List.find?_some found
    simp only [CaseRun.covers, Bool.and_eq_true, decide_eq_true_eq] at covered
    have before : isBlank c = false := by
      rw [← Bool.not_eq_true, isBlank_iff]
      rintro ⟨range, blank, least, most⟩
      have apart := (lowerRuns_apart run member range blank).1
      omega
    have after : isBlank (Char.ofNat (c.toNat + run.shift).toNat) = false := by
      rw [← Bool.not_eq_true, isBlank_iff]
      rintro ⟨range, blank, least, most⟩
      have apart := (lowerRuns_apart run member range blank).2
      have positive : ∀ range ∈ blankRanges, 0 < range.1 := by decide
      have first := positive range blank
      have moved := toNat_ofNat (c.toNat + run.shift).toNat
      omega
    rw [before]
    exact after

private theorem isBlank_toLower : ∀ n < 0x80, isBlank (Char.ofNat n).toLower = isBlank (Char.ofNat n) := by
  decide +kernel

theorem isBlank_lowerChar (c : Char) : isBlank (lowerChar c) = isBlank c := by
  unfold lowerChar
  split
  · next ascii =>
    have same := isBlank_toLower c.toNat ascii
    rwa [Char.ofNat_toNat] at same
  · exact isBlank_shiftBy c

private theorem trimBoth_map {p : Char → Bool} {f : Char → Char} (kept : ∀ c, p (f c) = p c) (cs : List Char) :
    trimBoth p (cs.map f) = (trimBoth p cs).map f := by
  have same : p ∘ f = p := funext kept
  simp only [trimBoth, List.dropWhile_map, ← List.map_reverse, same]

/-- Blanks around a name may be dropped before or after it is put in lower case. -/
theorem trim_lower (s : String) : trim (lower s) = lower (trim s) := by
  apply String.toList_inj.mp
  simp [trim, lower, trimBoth_map isBlank_lowerChar]

end Text

/-! ### Orders with the same key -/

private theorem find_same {registry : Registry} {name other : String} (same : Text.lower name = Text.lower other) :
    registry.find? name = registry.find? other := by
  rw [Registry.find?, Registry.find?, ← Text.trim_lower, ← Text.trim_lower, same]

namespace Transpiler

theorem outcomeWith_of_key {engines : Entry → Entry → Except RuleFault Engine} {o p : Order} {texts : List String}
    (same : o.key = p.key) (came : outcomeWith engines o = .ok texts) : outcomeWith engines p = .ok texts := by
  simp only [Order.key, OrderKey.mk.injEq] at same
  obtain ⟨source, target, all, sql⟩ := same
  have pair {first second : Entry} (found : pairOf o.source o.target = .ok (first, second)) :
      pairOf p.source p.target = .ok (first, second) := by
    rwa [pairOf_ok_iff, find_same source, find_same target, ← pairOf_ok_iff] at found
  cases found : pairOf o.source o.target with
  | error failure =>
    simp only [outcomeWith, transpileAllWith, transpileWith, found, bind, Except.bind, ite_self, reduceCtorEq] at came
  | ok entries =>
    have found' := pair found
    simp only [outcomeWith, transpileAllWith, transpileWith, found, found', all, sql] at came ⊢
    exact came

end Transpiler

/-! ### What is in a cache -/

namespace Cache

variable {κ ν : Type} [BEq κ] {c : Cache κ ν} {key : κ} {value : ν} {entry : κ × ν}

private theorem mem_refresh {entries : List (κ × ν)} (held : entry ∈ refresh entries key value) :
    entry = (key, value) ∨ entry ∈ entries := by
  obtain rfl | kept := List.mem_cons.mp held
  · exact .inl rfl
  · exact .inr (List.mem_of_mem_filter kept)

theorem mem_insert (held : entry ∈ (c.insert key value).entries) : entry = (key, value) ∨ entry ∈ c.entries :=
  mem_refresh (List.mem_of_mem_take held)

variable [LawfulBEq κ]

theorem mem_of_get (found : (c.get? key).1 = some value) : (key, value) ∈ c.entries := by
  unfold get? at found
  cases kept : c.entries.lookup key with
  | none =>
    rw [kept] at found
    cases found
  | some other =>
    rw [kept] at found
    cases found
    obtain ⟨front, back, entries, _⟩ := List.lookup_eq_some_iff.mp kept
    rw [entries]
    simp

theorem mem_get (held : entry ∈ (c.get? key).2.entries) : entry ∈ c.entries := by
  unfold get? at held
  cases kept : c.entries.lookup key with
  | none => rwa [kept] at held
  | some value =>
    have inside : (key, value) ∈ c.entries := mem_of_get (by rw [get?, kept])
    rw [kept] at held
    obtain rfl | old := mem_refresh held
    · exact inside
    · exact old

end Cache

/-! ### A service and its twin without a cache -/

/-- The configuration without room for results. -/
def Config.uncached (config : Config) : Config := { config with server := { config.server with cacheSize := 0 } }

namespace Service

open Transpiler (Current outcomeWith)

/-- Every result in the cache is what the rules in force make of the orders with its key. -/
def CacheValid (s : Service) : Prop :=
  ∀ cache, s.cache = some cache → ∀ entry ∈ cache.entries, ∀ o : Order, o.key = entry.1 →
    outcomeWith (Engine.under s.transpiler.rules) o = .ok entry.2

/-- Two services that differ in their caches and in what they have measured. -/
structure Twins (s u : Service) : Prop where
  config : u.config = s.config.uncached
  logger : u.logger = s.logger
  cache : u.cache = none
  current : s.transpiler.Current
  current' : u.transpiler.Current
  rules : u.transpiler.rules = s.transpiler.rules
  valid : s.CacheValid

/-- Steps that keep twins twins and have related results. -/
def Agree {α : Type} (related : α → α → Prop) (w v : Work α) : Prop :=
  ∀ s u, Twins s u → related (w s).1 (v u).1 ∧ Twins (w s).2 (v u).2

namespace Agree

variable {α β : Type} {related : α → α → Prop} {later : β → β → Prop} {w v : Work α} {f g : α → Work β}

theorem returned {a b : α} (same : related a b) : Agree related (pure a) (pure b) := fun _ _ twins => ⟨same, twins⟩

theorem bind (first : Agree related w v) (rest : ∀ a b, related a b → Agree later (f a) (g b)) :
    Agree later (w >>= f) (v >>= g) := by
  intro s u twins
  obtain ⟨same, next⟩ := first s u twins
  exact rest _ _ same _ _ next

theorem get : Agree Twins get get := fun _ _ twins => ⟨twins, twins⟩

theorem log (r : Log.Record) : Agree Eq (log r) (log r) := by
  intro s u twins
  refine ⟨rfl, { twins with logger := ?_ }⟩
  change u.logger.log r = s.logger.log r
  rw [twins.logger]

end Agree

/-! ### Conversions -/

/-- The log after an outcome. -/
def noticed (logger : Log.Logger) : Except Failure (List String) → Log.Logger
  | .ok _ => logger
  | .error failure => (failure.notice.forM logNotice { logger }).2.logger

private theorem run_apply {s : Service} (current : s.transpiler.Current) (o : Order) : ∃ transpiler telemetry,
    run o s = ((outcomeWith (Engine.under s.transpiler.rules) o).mapError Failure.error,
      { s with transpiler, telemetry, logger := noticed s.logger (outcomeWith (Engine.under s.transpiler.rules) o) }) ∧
    transpiler.Current ∧ transpiler.rules = s.transpiler.rules := by
  obtain ⟨next, came, held, same⟩ := Transpiler.Work.Yields.order o s.transpiler current rfl
  refine ⟨next, (run o s).2.telemetry, ?_, held, same⟩
  have ran : (orderWork o).run s.transpiler = (outcomeWith (Engine.under s.transpiler.rules) o, next) := came
  simp only [run, bind, StateT.bind, get, getThe, MonadStateOf.get, StateT.get, ran, modify, modifyGet,
    MonadStateOf.modifyGet, StateT.modifyGet, measure, record, pure]
  cases outcomeWith (Engine.under s.transpiler.rules) o with
  | ok texts => rfl
  | error failure =>
    simp only [noticed]
    cases failure.notice <;> rfl

private theorem lookUp_none {s : Service} (empty : s.cache = none) (o : Order) : lookUp o s = (none, s) := by
  simp only [lookUp, bind, StateT.bind, get, getThe, MonadStateOf.get, StateT.get, pure, empty]
  rfl

private theorem lookUp_some {s : Service} {cache : Cache OrderKey (List String)} (given : s.cache = some cache)
    (o : Order) : ∃ telemetry,
      lookUp o s = ((cache.get? o.key).1, { s with cache := some (cache.get? o.key).2, telemetry }) := by
  refine ⟨(lookUp o s).2.telemetry, ?_⟩
  simp only [lookUp, bind, StateT.bind, get, getThe, MonadStateOf.get, StateT.get, pure, given, modify, modifyGet,
    MonadStateOf.modifyGet, StateT.modifyGet, measure]
  rfl

private theorem convert_hit {s next : Service} {o : Order} {texts : List String}
    (found : lookUp o s = (some texts, next)) :
    convert o s = (.ok (texts, true), next) := by
  simp only [convert, bind, StateT.bind, found]
  rfl

private theorem convert_miss {s next : Service} {o : Order} (missed : lookUp o s = (none, next)) :
    convert o s = match run o next with
      | (.ok texts, last) => (.ok (texts, false), { last with cache := last.cache.map (·.insert o.key texts) })
      | (.error e, last) => (.error e, last) := by
  simp only [convert, bind, StateT.bind, missed]
  obtain ⟨result, last⟩ := run o next
  cases result <;> rfl

/-- A service with a valid cache converts as the rules in force make it, whether or not the result is in the cache,
and its cache stays valid. -/
private theorem convert_apply {s : Service} (current : s.transpiler.Current) (valid : s.CacheValid) (o : Order) :
    ∃ flag transpiler telemetry cache,
      convert o s = (((outcomeWith (Engine.under s.transpiler.rules) o).mapError Failure.error).map (·, flag),
        { s with transpiler, telemetry, cache,
                 logger := noticed s.logger (outcomeWith (Engine.under s.transpiler.rules) o) }) ∧
      transpiler.Current ∧ transpiler.rules = s.transpiler.rules ∧ CacheValid { s with cache } ∧
      (s.cache = none → flag = false ∧ cache = none) := by
  cases given : s.cache with
  | none =>
    obtain ⟨transpiler, telemetry, ran, held, same⟩ := run_apply current o
    refine ⟨false, transpiler, telemetry, none, ?_, held, same, nofun, fun _ => ⟨rfl, rfl⟩⟩
    rw [convert_miss (lookUp_none given o), ran]
    cases outcomeWith (Engine.under s.transpiler.rules) o <;> simp [Except.mapError, Except.map, given]
  | some cache =>
    obtain ⟨telemetry, looked⟩ := lookUp_some given o
    have kept : CacheValid { s with cache := some (cache.get? o.key).2 } := by
      rintro _ ⟨⟩ entry held
      exact valid cache given entry (Cache.mem_get held)
    cases found : (cache.get? o.key).1 with
    | some texts =>
      -- Running the order would have had this result and logged nothing.
      rw [found] at looked
      have known := valid cache given _ (Cache.mem_of_get found) o rfl
      refine ⟨true, s.transpiler, telemetry, some (cache.get? o.key).2, ?_, current, rfl, kept, nofun⟩
      rw [convert_hit looked, known]
      rfl
    | none =>
      rw [found] at looked
      obtain ⟨transpiler, measured, ran, held, same⟩ :=
        run_apply (s := { s with cache := some (cache.get? o.key).2, telemetry }) current o
      have missed := convert_miss looked
      rw [ran] at missed
      cases outcome : outcomeWith (Engine.under s.transpiler.rules) o with
      | ok texts =>
        -- The new entry answers for all orders with its key, not just for this one.
        rw [outcome] at missed
        refine ⟨false, transpiler, measured, some ((cache.get? o.key).2.insert o.key texts), missed,
          held, same, ?_, nofun⟩
        rintro _ ⟨⟩ entry inside p key
        obtain rfl | old := Cache.mem_insert inside
        · exact Transpiler.outcomeWith_of_key key.symm outcome
        · exact kept _ rfl entry old p key
      | error failure =>
        rw [outcome] at missed
        exact ⟨false, transpiler, measured, some (cache.get? o.key).2, missed, held, same, kept, nofun⟩

/-- Results that differ at most in where they come from. -/
def SameResult (a b : Except Error (List String × Bool)) : Prop :=
  ∃ result flag, a = Except.map (·, flag) result ∧ b = Except.map (·, false) result

private theorem Agree.convert (o : Order) : Agree SameResult (convert o) (convert o) := by
  intro s u twins
  have plain : u.CacheValid := fun cache given => by
    rw [twins.cache] at given
    cases given
  obtain ⟨flag, transpiler, telemetry, cache, came, held, same, valid, -⟩ := convert_apply twins.current twins.valid o
  obtain ⟨_, transpiler', telemetry', _, came', held', same', -, never⟩ := convert_apply twins.current' plain o
  obtain ⟨rfl, rfl⟩ := never twins.cache
  rw [came, came', twins.rules, twins.logger]
  refine ⟨⟨_, flag, rfl, rfl⟩, twins.config, rfl, rfl, held, held', ?_, ?_⟩
  · exact same'.trans (twins.rules.trans same.symm)
  · intro kept given entry inside p key
    rw [same]
    exact valid kept given entry inside p key

/-! ### Answers -/

open Http

/-- Responses that are the same but for the value of `cached`, which the second one gives as `false`. -/
def Alike (a b : Response) : Prop :=
  b = a ∨ ∃ fields flag, a.body = jsonBody (.object (fields ++ [("cached", .bool flag)])) ∧
    b = { a with body := jsonBody (.object (fields ++ [("cached", .bool false)])) }

private theorem Alike.status {a b : Response} (alike : Alike a b) : b.status = a.status := by
  obtain rfl | ⟨_, _, _, rfl⟩ := alike <;> rfl

private theorem Alike.headers {a b : Response} (alike : Alike a b) (requestId allowOrigin : String) :
    Alike { a with requestId, allowOrigin } { b with requestId, allowOrigin } := by
  obtain rfl | ⟨fields, flag, body, rfl⟩ := alike
  · exact .inl rfl
  · exact .inr ⟨fields, flag, body, rfl⟩

/-- Steps that measure and do nothing else. -/
def Quiet (w : Work Unit) : Prop := ∀ s, ∃ telemetry, w s = ((), { s with telemetry })

namespace Quiet

private theorem measure (m : Telemetry.Measurement) : Quiet (measure m) := fun _ => ⟨_, rfl⟩

private theorem record (span : Telemetry.Span) : Quiet (record span) := fun _ => ⟨_, rfl⟩

private theorem andThen {w v : Work Unit} (first : Quiet w) (second : Quiet v) : Quiet (w >>= fun _ => v) := by
  intro s
  obtain ⟨between, came⟩ := first s
  obtain ⟨telemetry, went⟩ := second { s with telemetry := between }
  refine ⟨telemetry, ?_⟩
  change StateT.bind w _ s = _
  rw [StateT.bind, came]
  exact went

private theorem observe (peer : Peer) (r : Request) (path : Path) (response : Response) (pattern : String) :
    Quiet (observe peer r path response pattern) := by
  refine (record _).andThen ((measure _).andThen ((measure _).andThen ?_))
  dsimp only
  split
  · exact measure _
  · exact fun _ => ⟨_, rfl⟩

end Quiet

namespace Agree

private theorem answerFailure (id : String) (o : Order) (e : Error) :
    Agree Alike (answerFailure id o e) (answerFailure id o e) :=
  (log _).bind fun _ _ _ => returned (.inl rfl)

private theorem answerOrder (id body : String) : Agree Alike (answerOrder id body) (answerOrder id body) := by
  refine get.bind fun s u twins => ?_
  simp only [twins.config, Config.uncached]
  cases readOrder s.config.server.maxBodyBytes body with
  | error fault => cases fault <;> exact returned (.inl rfl)
  | ok o =>
    dsimp only
    split
    · exact returned (.inl rfl)
    · split
      · exact returned (.inl rfl)
      · refine (Agree.convert _).bind ?_
        rintro _ _ ⟨result, flag, rfl, rfl⟩
        cases result with
        | error e => exact answerFailure id _ e
        | ok texts =>
          exact returned (.inr ⟨_, flag, rfl, rfl⟩)

private theorem answerEndpoint (id query : String) (r : Request) (e : Endpoint) :
    Agree Alike (answerEndpoint id query r e) (answerEndpoint id query r e) := by
  cases e with
  | health => exact returned (.inl rfl)
  | convert => exact answerOrder id r.body
  | live => exact (log _).bind fun _ _ _ => returned (.inl rfl)
  | dialects =>
    refine get.bind fun s u twins => returned (.inl ?_)
    rw [twins.current.registry, twins.current'.registry]
  | dialect name =>
    refine get.bind fun s u twins => returned (.inl ?_)
    rw [twins.current.registry, twins.current'.registry]
  | rules =>
    refine get.bind fun s u twins => returned (.inl ?_)
    rw [Transpiler.ruleNames, Transpiler.ruleNames, twins.rules]
  | logs =>
    refine get.bind fun s u twins => returned (.inl ?_)
    rw [twins.logger]

private theorem dispatch (now : Int) (id : String) (r : Request) (path : Path) (query : String) :
    Agree (fun a b => Alike a.1 b.1 ∧ b.2 = a.2) (dispatch now id r path query) (dispatch now id r path query) := by
  refine get.bind fun s u twins => ?_
  simp only [twins.config, Config.uncached]
  split
  · exact returned ⟨.inl rfl, rfl⟩
  · exact (answerEndpoint id query r _).bind fun a b alike => returned ⟨alike, rfl⟩
  · exact returned ⟨.inl rfl, rfl⟩
  · exact returned ⟨.inl rfl, rfl⟩

/-- What is measured does not matter. -/
private theorem observe (peer : Peer) (r : Request) (path : Path) (a b : Response) (pattern : String) :
    Agree Eq (observe peer r path a pattern) (observe peer r path b pattern) := by
  intro s u twins
  obtain ⟨telemetry, came⟩ := Quiet.observe peer r path a pattern s
  obtain ⟨telemetry', came'⟩ := Quiet.observe peer r path b pattern u
  rw [came, came']
  exact ⟨rfl, { twins with }⟩

private theorem answer (now : Int) (fresh : String) (r : Request) :
    Agree Alike (answer now fresh r) (answer now fresh r) := by
  refine get.bind fun s u twins => ?_
  simp only [twins.config, Config.uncached]
  split
  · exact returned (.inl rfl)
  · refine (dispatch now _ r _ _).bind ?_
    rintro ⟨a, _⟩ ⟨b, pattern⟩ ⟨alike, rfl⟩
    refine (observe _ r _ a b pattern).bind fun _ _ _ => ?_
    refine bind (?_ : Agree Eq _ _) fun _ _ _ => returned (Alike.headers alike _ _)
    rw [Alike.status alike]
    exact log _

end Agree

/-! ### Events -/

/-- What happens to a service: a request at a time, with an id in case it brings none, or other rules. -/
inductive Event
  | request (now : Int) (fresh : String) (r : Request)
  | rules (rules : List Rule)

/-- What comes of an event: a response, or whether the rules were taken. -/
inductive Reply
  | response (response : Response)
  | rules (outcome : Except Error Unit)

/-- Rules that are refused leave the service as it is. -/
def handle : Event → Work Reply
  | .request now fresh r => return .response (← answer now fresh r)
  | .rules rules => do
    match (← get).applyRules rules with
    | .ok next =>
      set next
      return .rules (.ok ())
    | .error e => return .rules (.error e)

/-- The same but for where a result comes from. -/
def Reply.Alike : Reply → Reply → Prop
  | .response a, .response b => Service.Alike a b
  | .rules a, .rules b => b = a
  | _, _ => False

/-- Both take the rules and forget what they had, or neither does. -/
private theorem Twins.applyRules {s u : Service} (twins : Twins s u) (rules : List Rule) :
    (∃ e, s.applyRules rules = .error e ∧ u.applyRules rules = .error e) ∨
      ∃ next last, s.applyRules rules = .ok next ∧ u.applyRules rules = .ok last ∧ Twins next last := by
  rw [Service.applyRules, Service.applyRules, Transpiler.setRules, Transpiler.setRules, twins.current.registry,
    twins.current'.registry]
  cases Transpiler.rulesFault? .standard rules with
  | some fault => exact .inl ⟨_, rfl, rfl⟩
  | none =>
    refine .inr ⟨_, _, rfl, rfl, twins.config, congrArg (Log.Logger.log · _) twins.logger, ?_,
      Transpiler.current_swap twins.current.registry rules, Transpiler.current_swap twins.current'.registry rules,
      rfl, ?_⟩
    · change u.cache.map Cache.clear = none
      rw [twins.cache]
      rfl
    · intro cache given entry held
      obtain ⟨_, _, rfl⟩ := Option.map_eq_some_iff.mp given
      cases held

private theorem handle_rules (rules : List Rule) (s : Service) :
    handle (.rules rules) s = match s.applyRules rules with
      | .ok next => (.rules (.ok ()), next)
      | .error e => (.rules (.error e), s) := by
  simp only [handle, bind, StateT.bind, get, getThe, MonadStateOf.get, StateT.get, pure]
  cases s.applyRules rules <;> rfl

private theorem Agree.handle (e : Event) : Agree Reply.Alike (handle e) (handle e) := by
  cases e with
  | request now fresh r => exact (Agree.answer now fresh r).bind fun a b alike => returned alike
  | rules rules =>
    intro s u twins
    rw [handle_rules, handle_rules]
    obtain ⟨e, refused, refused'⟩ | ⟨next, last, taken, taken', kept⟩ := twins.applyRules rules
    · rw [refused, refused']
      exact ⟨rfl, twins⟩
    · rw [taken, taken']
      exact ⟨rfl, kept⟩

private theorem Agree.mapM (events : List Event) :
    Agree (List.Forall₂ Reply.Alike) (events.mapM Service.handle) (events.mapM Service.handle) := by
  induction events with
  | nil => exact returned .nil
  | cons e rest ih =>
    rw [List.mapM_cons]
    exact (Agree.handle e).bind fun a b alike => ih.bind fun as bs others => returned (.cons alike others)

/-- A service answers as it would without its cache, whatever is asked of it and whatever rules are put in force in
between: only `cached` may have another value. -/
theorem cache_transparent (config : Config) (logger : Log.Logger) (initial : List Rule) (events : List Event) :
    List.Forall₂ Reply.Alike
      (events.mapM handle { ofConfig config logger with transpiler := { rules := initial } }).1
      (events.mapM handle { ofConfig config.uncached logger with transpiler := { rules := initial } }).1 := by
  refine (Agree.mapM events _ _ ?_).1
  refine ⟨rfl, rfl, rfl, Transpiler.current_fresh initial, Transpiler.current_fresh initial, rfl, ?_⟩
  intro cache given entry held
  change (if config.server.cacheSize > 0 then _ else _) = _ at given
  split at given
  · cases given
    cases held
  · cases given

end Service

end SqlDialects
