import Milp.Lp.Solve
import Milp.Solver.Highs

/-!
The solver library that the program runs with. Every option has a rule for the values it takes:
integers and doubles a closed range, some strings a fixed list of words. A double range test
compares with `<` and `>`, so a NaN passes every range. The library refuses a problem with a
NaN side, a lower side that counts as `+∞`, an upper side that counts as `-∞`, or a merged
coefficient too large to factor; it solves the rest as `Problem.solve` does.
-/
namespace Milp

/-- The values an option accepts besides its kind. -/
inductive OptionRule where
  | anyBool
  | intRange (lo hi : Int)
  | doubleRange (lo hi : Float)
  | anyString
  | oneOf (words : List String)
  /-- A string option that cannot be set at all. -/
  | fixed

/-- The kind an option rule belongs to. -/
def OptionRule.kind : OptionRule → OptionKind
  | .anyBool => .bool
  | .intRange .. => .int
  | .doubleRange .. => .double
  | .anyString | .oneOf _ | .fixed => .string

/-- Whether a value of the rule's kind is accepted. -/
def OptionRule.accepts : OptionRule → OptionValue → Bool
  | .anyBool, .bool _ => true
  | .intRange lo hi, .int i => decide (lo ≤ i) && decide (i ≤ hi)
  | .doubleRange lo hi, .float x => !(x < lo) && !(x > hi)
  | .anyString, .str _ => true
  | .oneOf words, .str s => words.contains s
  | _, _ => false

/-- The largest integer option value. -/
def intMax : Int := 2147483647

/-- An unbounded double side. -/
def inf : Float := 1 / 0

/-- Words of a three-way switch. -/
def offChooseOn : List String := ["off", "choose", "on"]

/-- The option table. -/
def optionTable : List (String × OptionRule) :=
  [ ("presolve", .oneOf offChooseOn),
    ("solver", .oneOf ["simplex", "choose", "ipm", "ipx", "hipo", "pdlp"]),
    ("parallel", .oneOf offChooseOn),
    ("run_crossover", .oneOf offChooseOn),
    ("ranging", .oneOf ["off", "on"]),
    ("time_limit", .doubleRange 0 inf),
    ("read_solution_file", .anyString),
    ("read_basis_file", .anyString),
    ("write_model_file", .anyString),
    ("write_presolved_model_file", .anyString),
    ("solution_file", .anyString),
    ("write_basis_file", .anyString),
    ("log_file", .anyString),
    ("model_file", .fixed),
    ("write_model_to_file", .anyBool),
    ("write_presolved_model_to_file", .anyBool),
    ("write_solution_to_file", .anyBool),
    ("write_solution_style", .intRange (-1) 4),
    ("glpsol_cost_row_location", .intRange (-2) intMax),
    ("random_seed", .intRange 0 intMax),
    ("threads", .intRange 0 intMax),
    ("user_objective_scale", .intRange (-intMax) intMax),
    ("user_bound_scale", .intRange (-intMax) intMax),
    ("infinite_cost", .doubleRange 1e15 inf),
    ("infinite_bound", .doubleRange 1e15 inf),
    ("small_matrix_value", .doubleRange 1e-12 inf),
    ("large_matrix_value", .doubleRange 1 inf),
    ("kkt_tolerance", .doubleRange 1e-10 inf),
    ("primal_feasibility_tolerance", .doubleRange 1e-10 inf),
    ("dual_feasibility_tolerance", .doubleRange 1e-10 inf),
    ("primal_residual_tolerance", .doubleRange 1e-10 inf),
    ("dual_residual_tolerance", .doubleRange 1e-10 inf),
    ("optimality_tolerance", .doubleRange 1e-10 inf),
    ("ipm_optimality_tolerance", .doubleRange 1e-12 inf),
    ("objective_bound", .doubleRange (-inf) inf),
    ("objective_target", .doubleRange (-inf) inf),
    ("highs_debug_level", .intRange 0 3),
    ("highs_analysis_level", .intRange 0 2047),
    ("log_dev_level", .intRange 0 3),
    ("log_githash", .anyBool),
    ("output_flag", .anyBool),
    ("log_to_console", .anyBool),
    ("timeless_log", .anyBool),
    ("solve_relaxation", .anyBool),
    ("allow_unbounded_or_infeasible", .anyBool),
    ("use_implied_bounds_from_presolve", .anyBool),
    ("lp_presolve_requires_basis_postsolve", .anyBool),
    ("mps_parser_type_free", .anyBool),
    ("simplex_strategy", .intRange 0 4),
    ("simplex_scale_strategy", .intRange 0 5),
    ("simplex_crash_strategy", .intRange 0 9),
    ("simplex_dual_edge_weight_strategy", .intRange (-1) 2),
    ("simplex_primal_edge_weight_strategy", .intRange (-1) 2),
    ("simplex_iteration_limit", .intRange 0 intMax),
    ("simplex_update_limit", .intRange 0 intMax),
    ("simplex_min_concurrency", .intRange 1 8),
    ("simplex_max_concurrency", .intRange 1 8),
    ("simplex_dualize_strategy", .intRange (-1) 1),
    ("simplex_permute_strategy", .intRange (-1) 1),
    ("simplex_price_strategy", .intRange 0 3),
    ("simplex_unscaled_solution_strategy", .intRange 0 2),
    ("simplex_initial_condition_check", .anyBool),
    ("simplex_initial_condition_tolerance", .doubleRange 1 inf),
    ("no_unnecessary_rebuild_refactor", .anyBool),
    ("rebuild_refactor_solution_error_tolerance", .doubleRange (-inf) inf),
    ("dual_steepest_edge_weight_error_tolerance", .doubleRange 0 inf),
    ("dual_steepest_edge_weight_log_error_threshold", .doubleRange 1 inf),
    ("dual_simplex_cost_perturbation_multiplier", .doubleRange 0 inf),
    ("primal_simplex_bound_perturbation_multiplier", .doubleRange 0 inf),
    ("dual_simplex_pivot_growth_tolerance", .doubleRange 1e-12 inf),
    ("presolve_pivot_threshold", .doubleRange 8e-4 0.5),
    ("factor_pivot_threshold", .doubleRange 8e-4 0.5),
    ("factor_pivot_tolerance", .doubleRange 0 1),
    ("start_crossover_tolerance", .doubleRange 1e-12 inf),
    ("max_dual_simplex_cleanup_level", .intRange 0 intMax),
    ("max_dual_simplex_phase1_cleanup_level", .intRange 0 intMax),
    ("cost_scale_factor", .intRange (-20) 20),
    ("allowed_matrix_scale_factor", .intRange 0 30),
    ("allowed_cost_scale_factor", .intRange 0 20),
    ("less_infeasible_DSE_check", .anyBool),
    ("less_infeasible_DSE_choose_row", .anyBool),
    ("use_original_HFactor_logic", .anyBool),
    ("ipm_iteration_limit", .intRange 0 intMax),
    ("ipx_dualize_strategy", .intRange (-2) 4),
    ("run_centring", .anyBool),
    ("max_centring_steps", .intRange 0 intMax),
    ("centring_ratio_tolerance", .doubleRange 0 inf),
    ("pdlp_native_termination", .anyBool),
    ("pdlp_scaling", .anyBool),
    ("pdlp_iteration_limit", .intRange 0 intMax),
    ("pdlp_e_restart_method", .intRange 0 2),
    ("pdlp_d_gap_tol", .doubleRange 1e-12 inf),
    ("qp_iteration_limit", .intRange 0 intMax),
    ("qp_nullspace_limit", .intRange 0 intMax),
    ("qp_regularization_value", .doubleRange 0 inf),
    ("iis_strategy", .intRange 0 intMax),
    ("blend_multi_objectives", .anyBool),
    ("presolve_reduction_limit", .intRange (-1) intMax),
    ("restart_presolve_reduction_limit", .intRange (-1) intMax),
    ("presolve_rule_off", .intRange 0 intMax),
    ("presolve_rule_logging", .anyBool),
    ("presolve_remove_slacks", .anyBool),
    ("presolve_substitution_maxfillin", .intRange 0 intMax),
    ("mip_detect_symmetry", .anyBool),
    ("mip_allow_restart", .anyBool),
    ("mip_max_nodes", .intRange 0 intMax),
    ("mip_max_stall_nodes", .intRange 0 intMax),
    ("mip_max_start_nodes", .intRange 0 intMax),
    ("mip_max_leaves", .intRange 0 intMax),
    ("mip_max_improving_sols", .intRange 1 intMax),
    ("mip_lp_age_limit", .intRange 0 32767),
    ("mip_pool_age_limit", .intRange 0 1000),
    ("mip_pool_soft_limit", .intRange 1 intMax),
    ("mip_pscost_minreliable", .intRange 0 intMax),
    ("mip_min_cliquetable_entries_for_parallelism", .intRange 0 intMax),
    ("mip_report_level", .intRange 0 2),
    ("mip_feasibility_tolerance", .doubleRange 1e-10 inf),
    ("mip_rel_gap", .doubleRange 0 inf),
    ("mip_abs_gap", .doubleRange 0 inf),
    ("mip_heuristic_effort", .doubleRange 0 1),
    ("mip_heuristic_run_feasibility_jump", .anyBool),
    ("mip_heuristic_run_rins", .anyBool),
    ("mip_heuristic_run_rens", .anyBool),
    ("mip_heuristic_run_root_reduced_cost", .anyBool),
    ("mip_heuristic_run_zi_round", .anyBool),
    ("mip_heuristic_run_shifting", .anyBool),
    ("mip_min_logging_interval", .doubleRange 0 inf),
    ("mip_improving_solution_save", .anyBool),
    ("mip_improving_solution_report_sparse", .anyBool),
    ("mip_improving_solution_file", .anyString),
    ("mip_root_presolve_only", .anyBool),
    ("mip_lifting_for_probing", .intRange (-1) intMax),
    ("icrash", .anyBool),
    ("icrash_dualize", .anyBool),
    ("icrash_strategy", .anyString),
    ("icrash_starting_weight", .doubleRange 1e-10 1e50),
    ("icrash_iterations", .intRange 0 200),
    ("icrash_approx_iter", .intRange 0 100),
    ("icrash_exact", .anyBool),
    ("icrash_breakpoints", .anyBool) ]

/-- The rule of a named option. -/
def OptionRule.find? (name : String) : Option OptionRule := (optionTable.lookup name)

/-- Whether a column or row has sides the solver refuses. -/
def badSides (lower upper : Float) : Bool :=
  lower.isNaN || upper.isNaN || infiniteBound ≤ lower || upper ≤ -infiniteBound

/-- Whether the solver refuses the problem as given: bad sides, or a merged coefficient too large
to factor. -/
def Problem.refused (p : Problem) : Bool :=
  p.columns.any (fun c => badSides c.lower c.upper) ||
    p.rows.any (fun r => badSides r.lower r.upper || r.factors.any fun f => largeCoefficient ≤ f.2.abs)

/-- The solver library as the `Lp` modules implement it. -/
def Highs.lp : Highs where
  optionKind name := (OptionRule.find? name).map OptionRule.kind
  accepts name v := match OptionRule.find? name with
    | some rule => rule.accepts v
    | none => false
  refuses := Problem.refused
  solve := Problem.solve

end Milp
