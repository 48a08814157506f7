import Emend.Formula.Compile
import Emend.Formula.PatternCache
import Emend.Proofs.Except
import Emend.Proofs.Formula.Acceptance

/-!
Formulas compiled with trees that are shared by their text. However many requests a cache has
served, and with whatever limits, the next one is compiled as without the cache, unless its own
limit refuses the text and the limit of an earlier one did not. Compiled patterns are shared as well, and
that changes nothing.
-/

set_option autoImplicit false

namespace Emend.Formula

/-- A text that is read with one limit is read as the same tree with every other one, unless that
refuses it as too deep. -/
theorem parse_ok_or_tooDeep {text : String} {limit : Nat} {expr : Expr}
    (read : parse text limit = .ok expr) (other : Nat) :
    parse text other = .ok expr ∨ ∃ span, parse text other = .error (.tooDeep other span) := by
  unfold parse at read ⊢
  obtain ⟨whole, t, sentence, rfl⟩ := Parser.formula_sound read
  have gives : Parser.Gives ⟨text.utf8ByteSize, (Lexed.ofText text).failure, other⟩ _ _ _ :=
    Parser.formula_gives whole sentence
  rcases gives.2 with deep | same
  · exact .inr deep
  · exact .inl same

section
variable (options : Options) (scope : Scope)

/-- The same options without shared trees. -/
def Options.unshared : Options := ⟨options.repeatLimit, false, options.depthLimit⟩

theorem Compiled.binary_unshared (op : BinaryOp) (x y : Compiled) :
    binary options.unshared op x y = binary options op x y := by
  cases op <;> rfl

variable {options scope}

theorem compileAll_unshared {allowance : Nat} {exprs : List Expr}
    (each : ∀ expr ∈ exprs, compile options.unshared scope allowance expr =
      compile options scope allowance expr) :
    compileAll options.unshared scope allowance exprs =
      compileAll options scope allowance exprs := by
  induction exprs with
  | nil =>
      unfold compileAll
      rfl
  | cons expr rest ih =>
      have others := ih fun later member => each later (List.mem_cons_of_mem _ member)
      unfold compileAll
      rw [each expr List.mem_cons_self, others]

theorem compile_unshared (allowance : Nat) (expr : Expr) :
    compile options.unshared scope allowance expr = compile options scope allowance expr := by
  induction allowance generalizing expr with
  | zero =>
      unfold compile
      rfl
  | succ allowance ih =>
      have all (exprs : List Expr) : compileAll options.unshared scope allowance exprs =
          compileAll options scope allowance exprs := compileAll_unshared fun expr _ => ih expr
      cases expr with
      | call name args span =>
          cases args <;> simp only [compile, ih, all]
      | _ => simp only [compile, ih, all, Compiled.binary_unshared]

theorem ofParsed_unshared (text : String) (parsed : Except ParseError Expr) :
    ofParsed options.unshared scope text parsed = ofParsed options scope text parsed := by
  have same (expr : Expr) : compile options.unshared scope options.unshared.depthLimit expr =
      compile options scope options.depthLimit expr := compile_unshared _ expr
  unfold ofParsed ofExpr
  simp only [same]

end

namespace Cache

theorem find?_parse {cache : Cache} {text other : String} {limit : Nat} {expr : Expr}
    (found : (cache.parse text limit).2.find? other = some expr) :
    cache.find? other = some expr ∨ text = other ∧ Formula.parse text limit = .ok expr := by
  unfold parse at found
  split at found
  · exact .inl found
  · split at found
    · rename_i read
      unfold find? at found
      rw [List.lookup_cons] at found
      split at found
      · rename_i same
        cases found
        exact .inr ⟨(beq_iff_eq.mp same).symm, read⟩
      · exact .inl found
    · exact .inl found

theorem parse_eq (cache : Cache) (text : String) (limit : Nat) :
    (cache.parse text limit).1 = Formula.parse text limit ∨
      ∃ expr, cache.find? text = some expr ∧ (cache.parse text limit).1 = .ok expr := by
  unfold parse
  split
  · rename_i expr found
    exact .inr ⟨expr, found, rfl⟩
  · split
    · rename_i read
      exact .inl read.symm
    · rename_i read
      exact .inl read.symm

end Cache

/-- A text to compile. -/
structure Request where
  text : String
  scope : Scope
  options : Options

namespace Request

/-- The same request without shared trees. -/
def unshared (r : Request) : Request := ⟨r.text, r.scope, r.options.unshared⟩

/-- What a request gets, and the cache that it leaves. -/
def serve (r : Request) (cache : Cache) : Except FormulaError Formula × Cache :=
  ofTextCached cache r.options r.scope r.text

/-- The cache after a series of requests. -/
def cacheAfter (history : List Request) : Cache :=
  history.foldl (fun cache r => (r.serve cache).2) .empty

/-- The request shares the tree that it reads the text as. -/
structure Leaves (r : Request) (text : String) (expr : Expr) : Prop where
  shares : r.options.shareTrees
  same : r.text = text
  read : parse text r.options.depthLimit = .ok expr

theorem find?_serve {r : Request} {cache : Cache} {text : String} {expr : Expr}
    (found : (r.serve cache).2.find? text = some expr) :
    cache.find? text = some expr ∨ r.Leaves text expr := by
  unfold serve ofTextCached at found
  by_cases shares : r.options.shareTrees
  · rw [if_pos shares] at found
    rcases Cache.find?_parse found with old | ⟨rfl, read⟩
    · exact .inl old
    · exact .inr ⟨shares, rfl, read⟩
  · rw [if_neg shares] at found
    exact .inl found

theorem find?_foldl_serve {history : List Request} {cache : Cache} {text : String} {expr : Expr}
    (found : (history.foldl (fun cache r => (r.serve cache).2) cache).find? text = some expr) :
    cache.find? text = some expr ∨ ∃ earlier ∈ history, earlier.Leaves text expr := by
  induction history generalizing cache with
  | nil => exact .inl found
  | cons r rest ih =>
      rcases ih found with before | ⟨earlier, member, leaves⟩
      · rcases find?_serve before with old | leaves
        · exact .inl old
        · exact .inr ⟨r, List.mem_cons_self, leaves⟩
      · exact .inr ⟨earlier, List.mem_cons_of_mem _ member, leaves⟩

/-- Every tree at hand was left by a request. -/
theorem find?_cacheAfter {history : List Request} {text : String} {expr : Expr}
    (found : (cacheAfter history).find? text = some expr) :
    ∃ earlier ∈ history, earlier.Leaves text expr := by
  rcases find?_foldl_serve found with impossible | left
  · cases impossible
  · exact left

theorem serve_unshared (r : Request) (cache : Cache) :
    (r.unshared.serve cache).1 = ofText r.options r.scope r.text := ofParsed_unshared r.text _

/-- A request compiles what it would read itself or the tree at hand. -/
theorem serve_eq (r : Request) (cache : Cache) :
    (r.serve cache).1 = (r.unshared.serve cache).1 ∨
      ∃ expr, cache.find? r.text = some expr ∧
        (r.serve cache).1 = ofExpr r.options r.scope r.text expr := by
  rw [serve_unshared]
  unfold serve ofTextCached
  by_cases shares : r.options.shareTrees
  · rw [if_pos shares]
    dsimp only
    rcases cache.parse_eq r.text r.options.depthLimit with read | ⟨expr, found, read⟩
    · rw [read]
      exact .inl rfl
    · rw [read]
      exact .inr ⟨expr, found, rfl⟩
  · rw [if_neg shares]
    exact .inl rfl

theorem serve_eq_of_read {r : Request} {cache : Cache}
    (own : ∀ expr, cache.find? r.text = some expr →
      parse r.text r.options.depthLimit = .ok expr) :
    (r.serve cache).1 = (r.unshared.serve cache).1 := by
  rcases r.serve_eq cache with same | ⟨expr, found, outcome⟩
  · exact same
  · rw [outcome, serve_unshared, ofText, own expr found]
    rfl

theorem serve_eq_of_limit {history : List Request} {r : Request}
    (limits : ∀ earlier ∈ history, earlier.options.depthLimit = r.options.depthLimit) :
    (r.serve (cacheAfter history)).1 = (r.unshared.serve (cacheAfter history)).1 := by
  apply serve_eq_of_read
  intro expr found
  obtain ⟨earlier, member, leaves⟩ := find?_cacheAfter found
  rw [← limits earlier member]
  exact leaves.read

/-- After any requests, with any limits, a request gets what it gets without shared trees; or its
own limit refuses the text as too deep, an earlier request has left the tree of that text, and it
gets what this tree is compiled to. -/
theorem serve_cacheAfter (history : List Request) (r : Request) :
    (r.serve (cacheAfter history)).1 = (r.unshared.serve (cacheAfter history)).1 ∨
      (∃ span, parse r.text r.options.depthLimit = .error (.tooDeep r.options.depthLimit span)) ∧
        ∃ earlier ∈ history, ∃ expr, earlier.Leaves r.text expr ∧
          (r.serve (cacheAfter history)).1 = ofExpr r.options r.scope r.text expr := by
  rcases r.serve_eq (cacheAfter history) with same | ⟨expr, found, outcome⟩
  · exact .inl same
  · obtain ⟨earlier, member, leaves⟩ := find?_cacheAfter found
    rcases parse_ok_or_tooDeep leaves.read r.options.depthLimit with read | deep
    · left
      rw [outcome, serve_unshared, ofText, read]
      rfl
    · exact .inr ⟨deep, earlier, member, expr, leaves, outcome⟩

/-- Four groups around a constant, to be read with the given limit. -/
def grouped (limit : Nat) : Request := ⟨"((((true))))", [], ⟨2048, true, limit⟩⟩

/-- The limit of three levels refuses the text unless the tree is at hand. -/
theorem serve_grouped :
    ∃ formula e,
      ((grouped 3).serve (cacheAfter [grouped 128])).1 = .ok formula ∧
      ((grouped 3).unshared.serve (cacheAfter [grouped 128])).1 = .error e ∧
      e.message = "Maximum nesting depth of 3 exceeded" := by
  have accepted : ((grouped 3).serve (cacheAfter [grouped 128])).1.toOption.map (·.kind) =
      some .boolean := by decide +kernel
  have refused : (errorOf? ((grouped 3).unshared.serve (cacheAfter [grouped 128])).1).map
      (·.message) = some "Maximum nesting depth of 3 exceeded" := by decide +kernel
  obtain ⟨formula, compiled, -⟩ := of_toOption_map accepted
  obtain ⟨e, failed, text⟩ := of_errorOf?_map refused
  exact ⟨formula, e, compiled, failed, text⟩

end Request

namespace PatternCache

/-- A pattern that is at hand is the one that its text has. -/
def Sound (cache : PatternCache) : Prop :=
  ∀ text regex, cache.find? text = some regex → patternOf text = .ok regex

theorem Sound.get_eq {cache : PatternCache} (sound : cache.Sound) (text : String) :
    (cache.get text).1 = patternOf text := by
  unfold get
  split
  · rename_i regex found
    exact (sound text regex found).symm
  · split <;> exact Eq.symm ‹_›

/-- What is at hand after a request: all that was, and the pattern of the text, if it has one. -/
theorem Sound.find?_get {cache : PatternCache} (sound : cache.Sound) (text other : String) :
    (cache.get text).2.find? other =
      if other = text then (patternOf text).toOption else cache.find? other := by
  unfold get
  split
  · rename_i regex found
    split
    · rename_i same
      rw [same, found, sound text regex found]
      rfl
    · rfl
  · rename_i absent
    split
    · rename_i regex made
      change List.lookup other ((text, regex) :: cache.entries) = _
      rw [List.lookup_cons, made]
      by_cases same : other = text
      · rw [if_pos same, same, beq_self_eq_true]
        rfl
      · rw [if_neg same, beq_eq_false_iff_ne.mpr same]
        rfl
    · rename_i e failed
      split
      · rename_i same
        rw [same, absent, failed]
        rfl
      · rfl

theorem Sound.get {cache : PatternCache} (sound : cache.Sound) (text : String) :
    (cache.get text).2.Sound := by
  intro other regex found
  rw [sound.find?_get] at found
  split at found
  · rename_i same
    rw [same]
    cases made : patternOf text <;> rw [made] at found <;> cases found
    rfl
  · exact sound other regex found

/-- The cache after some requests. -/
def after (history : List String) : PatternCache :=
  history.foldl (fun cache text => (cache.get text).2) empty

theorem sound_after (history : List String) : (after history).Sound := by
  have kept {cache : PatternCache} (sound : cache.Sound) :
      (history.foldl (fun cache text => (cache.get text).2) cache).Sound := by
    induction history generalizing cache with
    | nil => exact sound
    | cons text rest ih => exact ih (sound.get text)
  exact kept fun _ _ found => nomatch found

/-- After whatever requests, a text is compiled as without the cache. -/
theorem get_after (history : List String) (text : String) :
    ((after history).get text).1 = patternOf text :=
  (sound_after history).get_eq text

/-- The patterns at hand are those that were asked for. -/
theorem find?_after (history : List String) (text : String) : (after history).find? text =
    if text ∈ history then (patternOf text).toOption else none := by
  have made {cache : PatternCache} (sound : cache.Sound) :
      (history.foldl (fun cache text => (cache.get text).2) cache).find? text =
        if text ∈ history then (patternOf text).toOption else cache.find? text := by
    induction history generalizing cache with
    | nil => rfl
    | cons first rest ih =>
        rw [List.foldl_cons, ih (sound.get first), sound.find?_get]
        by_cases later : text ∈ rest
        · rw [if_pos later, if_pos (List.mem_cons_of_mem _ later)]
        · rw [if_neg later]
          by_cases same : text = first
          · rw [if_pos same, same, if_pos List.mem_cons_self]
          · rw [if_neg same, if_neg fun member => (List.mem_cons.mp member).elim same later]
  exact made fun _ _ found => nomatch found

end PatternCache

end Emend.Formula
