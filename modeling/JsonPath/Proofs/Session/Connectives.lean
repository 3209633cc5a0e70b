import JsonPath.Proofs.Evaluation.Connectives
import JsonPath.Proofs.Parser.Connectives
import JsonPath.Proofs.Session.Composition

/-!
# Filters form a Boolean algebra

Two expressions that can stand alone in a filter can be put under a negation, a conjunction and a
disjunction, by their texts in parentheses. What the filters select below the root are then the
complement, the intersection and the union of what they select alone, in the order of all children.
-/

namespace JsonPath

variable {environment : Environment} {a b : Text} {t t' u u' : Token} {left right e e' : Expr}

theorem bareSegments_filter (h : e.bare = e'.bare) :
    bareSegments [.child t [.filter u e]] = bareSegments [.child t' [.filter u' e']] := by
  simp only [bareSegments, Segment.bare, bareSelectors, Selector.bare, h]

/-- **Filters form a Boolean algebra.** Where two texts are expressions in a filter, so are their
negation, conjunction and disjunction, in parentheses. Whatever has been done in a session before,
on a document on which the two fail nowhere they select what the first does not, what both do and
what at least one of them does, in the order in which a wildcard has the nodes, and each once. What
a host function returns depends on its arguments only. -/
theorem compile_connectives
    (ha : environment.compile ("$[?" ++ a ++ "]") = .ok [.child t [.filter u left]])
    (hb : environment.compile ("$[?" ++ b ++ "]") = .ok [.child t' [.filter u' right]]) :
    ∃ every not and or : Query,
      environment.compile "$[*]" = .ok every ∧
      environment.compile ("$[?!(" ++ a ++ ")]") = .ok not ∧
      environment.compile ("$[?(" ++ a ++ ") && (" ++ b ++ ")]") = .ok and ∧
      environment.compile ("$[?(" ++ a ++ ") || (" ++ b ++ ")]") = .ok or ∧
      ∀ (sizes : Text → Nat) (history : List LoggedCommand),
        (∀ step ∈ history, step.2.isSteady = true) →
        ∀ (logging : Bool) (data : Value) (ns ms : List Node), data.isJson = true →
          let session := (Session.start (environment.renewed sizes)).after history
          session.find logging [.child t [.filter u left]] data none = .ok ns →
          session.find logging [.child t' [.filter u' right]] data none = .ok ms →
          ∃ all others both either : List Node,
            session.find logging every data none = .ok all ∧
            session.find logging not data none = .ok others ∧
            session.find logging and data none = .ok both ∧
            session.find logging or data none = .ok either ∧
            Picks all (fun node => node ∉ ns) others ∧
            Picks all (fun node => node ∈ ns ∧ node ∈ ms) both ∧
            Picks all (fun node => node ∈ ns ∨ node ∈ ms) either := by
  have hleft : Filters environment.dialect a left := ⟨t, u, ha⟩
  have hright : Filters environment.dialect b right := ⟨t', u', hb⟩
  obtain ⟨n, _, d, t₁, u₁, hnot⟩ := hleft.negation
  obtain ⟨c, _, d₁, d₂, t₂, u₂, hand⟩ := hleft.conjunction hright
  obtain ⟨o, _, d₃, d₄, t₃, u₃, hor⟩ := hleft.disjunction hright
  have hnotText : filterText ("!(" ++ a ++ ")") = "$[?!(" ++ a ++ ")]" :=
    Text.toList_injective (by simp [filterText])
  have handText : filterText ("(" ++ a ++ ") && (" ++ b ++ ")") =
      "$[?(" ++ a ++ ") && (" ++ b ++ ")]" := Text.toList_injective (by simp [filterText])
  have horText : filterText ("(" ++ a ++ ") || (" ++ b ++ ")") =
      "$[?(" ++ a ++ ") || (" ++ b ++ ")]" := Text.toList_injective (by simp [filterText])
  rw [hnotText] at hnot
  rw [handText] at hand
  rw [horText] at hor
  refine ⟨[.child ⟨.openSquare, "[", 1, 2, "$[*]"⟩ [.wildcard ⟨.wildcard, "*", 2, 3, "$[*]"⟩]],
    _, _, _, by cbv,
    hnot, hand, hor, ?_⟩
  intro sizes history hsteady logging data ns ms hdata session hns hms
  obtain ⟨_, hsession⟩ := (Session.start_follows environment sizes).after hsteady
  rw [hsession.find_eq_ok_iff] at hns hms
  obtain ⟨others, both, either, hothers, hboth, heither, hpicks⟩ :=
    Rules.find_connectives hdata hns hms t u n c o
  -- In the joint texts the tokens stand further on, which no search can tell.
  have hfind {t' u' : Token} {e e' : Expr} {found : List Node} (hbare : e.bare = e'.bare)
      (h : environment.frame.rules.find [.child t [.filter u e']] (Node.start data none) =
        some found) :
      session.find logging [.child t' [.filter u' e]] data none = .ok found := by
    rw [Session.find_congr (bareSegments_filter hbare)]
    exact hsession.find_eq_ok_iff.2 h
  refine ⟨(Node.start data none).children, others, both, either, ?_, ?_, ?_, ?_, hpicks⟩
  · exact hsession.find_eq_ok_iff.2 (Rules.find_wildcard _ _)
  · exact hfind (by simp only [Expr.bare, Expr.bare_moved]) hothers
  · exact hfind (by simp only [Expr.bare, Expr.bare_moved]) hboth
  · exact hfind (by simp only [Expr.bare, Expr.bare_moved]) heither

/-- Two bounds, of which the one is written with a blank behind it. -/
theorem compile_connectives_bounds :
    let data := Value.array [.string "a", .string "b", .string "c"]
    let node (text : Text) (index : Int) : Node := ⟨.string text, [.index index], data⟩
    let session := (Session.start (Environment.standard.renewed fun _ => 1)).after []
    ∃ query : Query, Environment.standard.compile "$[?(@>'a' ) && (@<'c')]" = .ok query ∧
      ∃ all both, session.find true query data none = .ok both ∧
        Picks all (fun n => n ∈ [node "b" 1, node "c" 2] ∧ n ∈ [node "a" 0, node "b" 1]) both := by
  intro data node session
  obtain ⟨t, u, left, hleft, hns⟩ : ∃ t u left,
      Environment.standard.compile ("$[?" ++ "@>'a' " ++ "]") = .ok [.child t [.filter u left]] ∧
      session.find true [.child t [.filter u left]] data none = .ok [node "b" 1, node "c" 2] :=
    ⟨_, _, _, by cbv, by cbv⟩
  obtain ⟨t', u', right, hright, hms⟩ : ∃ t u right,
      Environment.standard.compile ("$[?" ++ "@<'c'" ++ "]") = .ok [.child t [.filter u right]] ∧
      session.find true [.child t [.filter u right]] data none = .ok [node "a" 0, node "b" 1] :=
    ⟨_, _, _, by cbv, by cbv⟩
  obtain ⟨_, _, query, _, -, -, hquery, -, hfind⟩ := compile_connectives hleft hright
  obtain ⟨all, _, both, _, -, -, hboth, -, -, hpicks, -⟩ :=
    hfind (fun _ => 1) [] (List.forall_mem_nil _) true data _ _ (by decide) hns hms
  exact ⟨query, hquery, all, both, hboth, hpicks⟩

end JsonPath
