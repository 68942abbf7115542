import Mathlib.Data.List.Induction
import WasmTrim.Proofs.Sexpr.Parse

/-!
# Which tokens denote a tree

Tokens denote a tree exactly when they are the tokens of some lists one after another, and then it
is the last of these lists. All other tokens have a fault: the first one that stands outside every
list and opens none, or, where there is no such token, the lists that are never closed.

## Implementation notes

`ReadTo` says where reading stands behind some tokens. It holds as long as no token is stray, and
the depth of the tokens is then the number of lists on the stack.
-/

namespace WasmTrim.Sexpr

variable {tokens before front : List Token} {token : Token} {kinds₁ kinds₂ : List TokenKind}
variable {t last : Sexpr} {items trees : List Sexpr} {opened : List (List Sexpr)} {e : ParseError}

/-! ### Depth -/

/-- The number of opening parentheses less that of closing ones. -/
def depth (kinds : List TokenKind) : Int :=
  kinds.count .opening - kinds.count .closing

theorem depth_append : depth (kinds₁ ++ kinds₂) = depth kinds₁ + depth kinds₂ := by
  simp only [depth, List.count_append]
  omega

theorem depth_opening : depth [.opening] = 1 := rfl

theorem depth_closing : depth [.closing] = -1 := rfl

mutual

/-- The parentheses of a tree match. -/
theorem depth_kinds : (t : Sexpr) → depth (kinds t) = 0
  | .atom text => rfl
  | .list items => by
    rw [kinds, ← List.singleton_append, depth_append, depth_append, depth_kindsIn items,
      depth_opening, depth_closing]
    rfl

theorem depth_kindsIn : (items : List Sexpr) → depth (kindsIn items) = 0
  | [] => rfl
  | t :: rest => by
    rw [kindsIn, depth_append, depth_kinds t, depth_kindsIn rest]
    rfl

end

/-- A token that stands outside every list and opens none. -/
def Stray (before : List Token) (token : Token) : Prop :=
  token.kind ≠ .opening ∧ depth (before.map Token.kind) = 0

/-- No token is stray. -/
def NoneStray (tokens : List Token) : Prop :=
  ∀ before token after, tokens = before ++ token :: after → ¬ Stray before token

theorem noneStray_nil : NoneStray [] := by
  intro before token after hsplit
  exact absurd hsplit (List.append_ne_nil_of_right_ne_nil _ (List.cons_ne_nil _ _)).symm

theorem noneStray_append_singleton :
    NoneStray (before ++ [token]) ↔ NoneStray before ∧ ¬ Stray before token := by
  constructor
  · intro h
    refine ⟨fun front other after hsplit => h front other (after ++ [token]) ?_, h before token [] rfl⟩
    rw [hsplit, List.append_assoc, List.cons_append]
  · rintro ⟨hbefore, htoken⟩ front other after hsplit
    rcases List.eq_nil_or_concat after with rfl | ⟨inner, final, rfl⟩
    · obtain ⟨rfl, hlast⟩ := List.append_inj' hsplit rfl
      cases hlast
      exact htoken
    · rw [List.concat_eq_append, ← List.cons_append, ← List.append_assoc] at hsplit
      exact hbefore front other inner (List.append_inj' hsplit rfl).1

/-- Tokens among which some are stray have a first stray one. -/
theorem exists_first_stray (tokens : List Token) :
    NoneStray tokens ∨ ∃ before token after, tokens = before ++ token :: after ∧
      NoneStray before ∧ Stray before token := by
  induction tokens using List.reverseRecOn with
  | nil => exact Or.inl noneStray_nil
  | append_singleton tokens token ih =>
      rcases ih with hnone | ⟨before, first, after, rfl, hbefore, hfirst⟩
      · by_cases hstray : Stray tokens token
        · exact Or.inr ⟨tokens, token, [], rfl, hnone, hstray⟩
        · exact Or.inl (noneStray_append_singleton.mpr ⟨hnone, hstray⟩)
      · refine Or.inr ⟨before, first, after ++ [token], ?_, hbefore, hfirst⟩
        rw [List.append_assoc, List.cons_append]

/-- What is wrong with tokens that denote no tree: the first stray token, or else the lists that are
still open at the end. -/
inductive Fault (tokens : List Token) : ParseError → Prop
  | unexpectedClose {before after : List Token} {place : Position}
      (htokens : tokens = before ++ ⟨.closing, place⟩ :: after) (hbefore : NoneStray before)
      (hdepth : depth (before.map Token.kind) = 0) : Fault tokens (.unexpectedClose place)
  | atomOutsideList {before after : List Token} {text : String} {place : Position}
      (htokens : tokens = before ++ ⟨.atom text, place⟩ :: after) (hbefore : NoneStray before)
      (hdepth : depth (before.map Token.kind) = 0) : Fault tokens (.atomOutsideList text place)
  | unclosedList {n : Nat} (hstray : NoneStray tokens) (hdepth : depth (tokens.map Token.kind) = n)
      (hopen : n ≠ 0) : Fault tokens (.unclosedList n)

/-! ### What has been read -/

/-- The kinds of the tokens that opened the lists of a stack and filled them so far. -/
def openedKinds : List (List Sexpr) → List TokenKind
  | [] => []
  | items :: outer => openedKinds outer ++ .opening :: kindsIn items.reverse

theorem depth_openedKinds (opened : List (List Sexpr)) :
    depth (openedKinds opened) = opened.length := by
  induction opened with
  | nil => rfl
  | cons items outer ih =>
      rw [openedKinds, ← List.singleton_append, depth_append, depth_append, depth_kindsIn,
        depth_opening, ih, List.length_cons]
      omega

theorem kindsIn_append (ts us : List Sexpr) : kindsIn (ts ++ us) = kindsIn ts ++ kindsIn us := by
  induction ts with
  | nil => rfl
  | cons t ts ih => rw [List.cons_append, kindsIn, kindsIn, ih, List.append_assoc]

/-- One more item in the innermost open list adds the tokens of that item. -/
theorem openedKinds_cons_cons (t : Sexpr) (items : List Sexpr) (opened : List (List Sexpr)) :
    openedKinds ((t :: items) :: opened) = openedKinds (items :: opened) ++ kinds t := by
  rw [openedKinds, openedKinds, List.reverse_cons, kindsIn_append, kindsIn, kindsIn, List.append_nil,
    List.append_assoc, List.cons_append]

/-- Behind some tokens, the last complete list and the lists that are open. -/
structure ReadTo (before : List Token) (last : Sexpr) (opened : List (List Sexpr)) : Prop where
  /-- Whatever follows is read from here. -/
  continues : ∀ rest, ofTokens (before ++ rest) = parseFrom last opened rest
  /-- The tokens are those of the complete lists and of the open ones. -/
  exists_trees : ∃ trees, (∀ t ∈ trees, t.isList = true) ∧ last = trees.getLastD (.list []) ∧
    before.map Token.kind = kindsIn trees ++ openedKinds opened

theorem readTo_nil : ReadTo [] (.list []) [] where
  continues _ := rfl
  exists_trees := ⟨[], by simp, rfl, rfl⟩

namespace ReadTo

theorem depth_eq (h : ReadTo before last opened) :
    depth (before.map Token.kind) = opened.length := by
  obtain ⟨trees, _, _, hkinds⟩ := h.exists_trees
  rw [hkinds, depth_append, depth_kindsIn, depth_openedKinds, Int.zero_add]

/-- A token inside the open lists leaves the complete ones as they are. -/
theorem inside {opened' : List (List Sexpr)} (h : ReadTo before last opened)
    (hread : ∀ rest, parseFrom last opened (token :: rest) = parseFrom last opened' rest)
    (hopened : openedKinds opened' = openedKinds opened ++ [token.kind]) :
    ReadTo (before ++ [token]) last opened' where
  continues rest := by rw [List.append_assoc, h.continues, List.singleton_append, hread]
  exists_trees := by
    obtain ⟨trees, hlists, hlast, hkinds⟩ := h.exists_trees
    refine ⟨trees, hlists, hlast, ?_⟩
    rw [List.map_append, hkinds, hopened, List.append_assoc]
    rfl

theorem opening (h : ReadTo before last opened) (place : Position) :
    ReadTo (before ++ [⟨.opening, place⟩]) last ([] :: opened) := by
  apply h.inside
  · intro rest
    rw [parseFrom]
  · rw [openedKinds]
    rfl

theorem atom (h : ReadTo before last (items :: opened)) (text : String) (place : Position) :
    ReadTo (before ++ [⟨.atom text, place⟩]) last ((.atom text :: items) :: opened) := by
  apply h.inside
  · intro rest
    rw [parseFrom]
  · exact openedKinds_cons_cons (.atom text) items opened

/-- A list inside another is closed and becomes an item of it. -/
theorem closing {outer : List Sexpr} (h : ReadTo before last (items :: outer :: opened))
    (place : Position) :
    ReadTo (before ++ [⟨.closing, place⟩]) last ((.list items.reverse :: outer) :: opened) := by
  apply h.inside
  · intro rest
    rw [parseFrom]
  · rw [openedKinds_cons_cons, kinds, openedKinds.eq_def (items :: outer :: opened),
      List.append_assoc, List.cons_append]

/-- The outermost list is closed and is the last complete one. -/
theorem closing_outermost (h : ReadTo before last [items]) (place : Position) :
    ReadTo (before ++ [⟨.closing, place⟩]) (.list items.reverse) [] where
  continues rest := by rw [List.append_assoc, h.continues, List.singleton_append, parseFrom]
  exists_trees := by
    obtain ⟨trees, hlists, _, hkinds⟩ := h.exists_trees
    refine ⟨trees ++ [.list items.reverse], ?_, List.getLastD_concat.symm, ?_⟩
    · intro t hmem
      rcases List.mem_append.mp hmem with hmem | hmem
      · exact hlists t hmem
      · rw [List.mem_singleton.mp hmem]
        rfl
    · rw [List.map_append, hkinds, openedKinds, openedKinds, kindsIn_append, kindsIn, kinds, kindsIn]
      simp only [List.append_assoc, List.cons_append, List.append_nil]
      rfl

/-- Reading goes on behind every token that is not stray. -/
theorem step (h : ReadTo before last opened) (hstray : ¬ Stray before token) :
    ∃ last' opened', ReadTo (before ++ [token]) last' opened' := by
  obtain ⟨kind, place⟩ := token
  have hopened : kind ≠ .opening → opened ≠ [] := by
    rintro hkind rfl
    exact hstray ⟨hkind, h.depth_eq⟩
  cases kind with
  | opening => exact ⟨_, _, h.opening place⟩
  | closing =>
      match opened, h, hopened (by rintro ⟨⟩) with
      | [_], h, _ => exact ⟨_, _, h.closing_outermost place⟩
      | _ :: _ :: _, h, _ => exact ⟨_, _, h.closing place⟩
  | atom text =>
      match opened, h, hopened (by rintro ⟨⟩) with
      | _ :: _, h, _ => exact ⟨_, _, h.atom text place⟩

end ReadTo

/-- Tokens of which none is stray are read to their end. -/
theorem exists_readTo (h : NoneStray before) : ∃ last opened, ReadTo before last opened := by
  induction before using List.reverseRecOn with
  | nil => exact ⟨_, _, readTo_nil⟩
  | append_singleton before token ih =>
      obtain ⟨hbefore, htoken⟩ := noneStray_append_singleton.mp h
      obtain ⟨last, opened, hread⟩ := ih hbefore
      exact hread.step htoken

/-- Outside every list, no list is on the stack. -/
theorem exists_readTo_outside (h : NoneStray before) (hdepth : depth (before.map Token.kind) = 0) :
    ∃ last, ReadTo before last [] := by
  obtain ⟨last, opened, hread⟩ := exists_readTo h
  have hlength := hread.depth_eq
  rw [hdepth] at hlength
  have hnil : opened = [] := List.eq_nil_of_length_eq_zero (by omega)
  subst hnil
  exact ⟨last, hread⟩

/-! ### Lists and faults -/

/-- The fault of tokens is reported. -/
theorem ofTokens_of_fault (h : Fault tokens e) : ofTokens tokens = .error e := by
  cases h with
  | unexpectedClose htokens hbefore hdepth =>
      obtain ⟨last, hread⟩ := exists_readTo_outside hbefore hdepth
      rw [htokens, hread.continues, parseFrom]
  | atomOutsideList htokens hbefore hdepth =>
      obtain ⟨last, hread⟩ := exists_readTo_outside hbefore hdepth
      rw [htokens, hread.continues, parseFrom]
  | @unclosedList n hstray hdepth hopen =>
      obtain ⟨last, opened, hread⟩ := exists_readTo hstray
      have hlength : n = opened.length := by
        have hstack := hread.depth_eq
        omega
      have hend := hread.continues []
      rw [List.append_nil] at hend
      rw [hend, hlength]
      cases opened with
      | nil => exact absurd hlength hopen
      | cons items outer => rw [parseFrom]

/-- Outside every list, the tokens of lists are read as these lists, of which the last is held. -/
theorem parseFrom_lists (hlists : ∀ t ∈ trees, t.isList = true)
    (hkinds : tokens.map Token.kind = kindsIn trees) (last : Sexpr) (rest : List Token) :
    parseFrom last [] (tokens ++ rest) = parseFrom (trees.getLastD last) [] rest := by
  induction trees generalizing tokens last with
  | nil =>
      rw [List.map_eq_nil_iff.mp hkinds]
      rfl
  | cons t trees ih =>
      obtain ⟨hlist, hothers⟩ := List.forall_mem_cons.mp hlists
      obtain ⟨first, others, rfl, hfirst, hkinds'⟩ := List.map_eq_append_iff.mp hkinds
      cases t with
      | atom text => cases hlist
      | list items =>
          obtain ⟨place, inside, place', rfl, hinside⟩ := exists_of_kinds_list hfirst
          have hread := parseFrom_kindsIn items hinside last [] []
            (⟨.closing, place'⟩ :: (others ++ rest))
          rw [List.append_nil] at hread
          rw [List.getLastD_cons, ← ih hothers hkinds', List.cons_append, List.cons_append, parseFrom,
            List.append_assoc, List.append_assoc, List.singleton_append, hread, parseFrom,
            List.reverse_reverse]

theorem ofTokens_of_lists (hlists : ∀ t ∈ trees, t.isList = true)
    (hkinds : tokens.map Token.kind = kindsIn trees) :
    ofTokens tokens = .ok (trees.getLastD (.list [])) := by
  have hread := parseFrom_lists hlists hkinds (.list []) []
  rw [List.append_nil] at hread
  rw [ofTokens, hread, parseFrom]

/-- Tokens are those of some lists, or they have a fault. -/
theorem lists_or_fault (tokens : List Token) :
    (∃ trees, (∀ t ∈ trees, t.isList = true) ∧ tokens.map Token.kind = kindsIn trees) ∨
      ∃ e, Fault tokens e := by
  rcases exists_first_stray tokens with hnone | ⟨before, token, after, htokens, hbefore, hstray⟩
  · obtain ⟨last, opened, hread⟩ := exists_readTo hnone
    obtain ⟨trees, hlists, _, hkinds⟩ := hread.exists_trees
    cases opened with
    | nil => exact Or.inl ⟨trees, hlists, by rw [hkinds, openedKinds, List.append_nil]⟩
    | cons items outer =>
        exact Or.inr ⟨_, .unclosedList hnone hread.depth_eq (Nat.succ_ne_zero _)⟩
  · obtain ⟨kind, place⟩ := token
    obtain ⟨hkind, hdepth⟩ := hstray
    cases kind with
    | opening => exact absurd rfl hkind
    | closing => exact Or.inr ⟨_, .unexpectedClose htokens hbefore hdepth⟩
    | atom text => exact Or.inr ⟨_, .atomOutsideList htokens hbefore hdepth⟩

/-- What was read before matters only where nothing follows. -/
theorem parseFrom_congr_last (last' : Sexpr) (h : opened ≠ [] ∨ tokens ≠ []) :
    parseFrom last opened tokens = parseFrom last' opened tokens := by
  fun_induction parseFrom last opened tokens with
  | case1 => simp at h
  | case2 last items opened => rw [parseFrom]
  | case3 last opened place tokens ih =>
      rw [parseFrom]
      exact ih (Or.inl (List.cons_ne_nil _ _))
  | case4 => rw [parseFrom]
  | case5 => rw [parseFrom]
  | case6 last items outer opened place tokens ih =>
      rw [parseFrom]
      exact ih (Or.inl (List.cons_ne_nil _ _))
  | case7 => rw [parseFrom]
  | case8 last items opened text place tokens ih =>
      rw [parseFrom]
      exact ih (Or.inl (List.cons_ne_nil _ _))

/-- Tokens denote a tree exactly if they are the tokens of some lists: the last of these, or the
empty list. Otherwise their fault is reported. Lists in front change nothing. -/
theorem ofTokens_balanced (tokens : List Token) :
    (∀ t, ofTokens tokens = .ok t ↔
      ∃ trees, (∀ u ∈ trees, u.isList = true) ∧ tokens.map Token.kind = kindsIn trees ∧
        t = trees.getLastD (.list [])) ∧
    (∀ e, ofTokens tokens = .error e ↔ Fault tokens e) ∧
    ∀ front t, ofTokens front = .ok t → tokens ≠ [] →
      ofTokens (front ++ tokens) = ofTokens tokens := by
  have hok : ∀ (tokens : List Token) t, ofTokens tokens = .ok t →
      ∃ trees, (∀ u ∈ trees, u.isList = true) ∧ tokens.map Token.kind = kindsIn trees ∧
        t = trees.getLastD (.list []) := by
    intro tokens t h
    rcases lists_or_fault tokens with ⟨trees, hlists, hkinds⟩ | ⟨e, hfault⟩
    · rw [ofTokens_of_lists hlists hkinds, Except.ok.injEq] at h
      exact ⟨trees, hlists, hkinds, h.symm⟩
    · rw [ofTokens_of_fault hfault] at h
      cases h
  refine ⟨fun t => ⟨hok tokens t, ?_⟩, fun e => ⟨?_, ofTokens_of_fault⟩, ?_⟩
  · rintro ⟨trees, hlists, hkinds, rfl⟩
    exact ofTokens_of_lists hlists hkinds
  · intro h
    rcases lists_or_fault tokens with ⟨trees, hlists, hkinds⟩ | ⟨e', hfault⟩
    · rw [ofTokens_of_lists hlists hkinds] at h
      cases h
    · rw [ofTokens_of_fault hfault, Except.error.injEq] at h
      rwa [← h]
  · intro front t hfront hne
    obtain ⟨trees, hlists, hkinds, _⟩ := hok front t hfront
    rw [ofTokens, parseFrom_lists hlists hkinds]
    exact parseFrom_congr_last _ (Or.inr hne)

/-- A closing parenthesis that closes nothing is reported before the atom behind it, and at the same
place if a list stands in front. -/
theorem ofTokens_stray_closing :
    ofTokens [⟨.closing, .start⟩, ⟨.atom "a", .start⟩] = .error (.unexpectedClose .start) ∧
    ofTokens ([⟨.opening, .start⟩, ⟨.closing, .start⟩] ++
      [⟨.closing, .start⟩, ⟨.atom "a", .start⟩]) = .error (.unexpectedClose .start) := by
  obtain ⟨_, hfault, hfront⟩ := ofTokens_balanced [⟨.closing, .start⟩, ⟨.atom "a", .start⟩]
  have hclose : Fault [⟨.closing, .start⟩, ⟨.atom "a", .start⟩] (.unexpectedClose .start) :=
    .unexpectedClose rfl noneStray_nil rfl
  have herror := (hfault _).mpr hclose
  refine ⟨herror, ?_⟩
  rw [hfront _ (.list []) rfl (List.cons_ne_nil _ _), herror]

end WasmTrim.Sexpr
