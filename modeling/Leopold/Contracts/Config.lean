import Leopold.Contracts.Basic

/-!
# Deployment parameters

The constructor arguments of a vault together with the addresses its deployment fixes: the
vault itself, the escrow and the adapter it creates, the confidential asset and the Compound
market.  The values the constructors store unchanged in immutables are read from here.
-/

namespace Leopold

def MAX_POOL_BASE_UNITS : Nat := 1000000000000000
def MAX_ROUND_DURATION : Nat := 31536000
def MAX_AGGREGATE_TWAB : Nat := 31536000000000000000000
def MAX_SELECTION_CHUNK : Nat := 4
def MAX_ALLOCATION_CHUNK : Nat := 4
def LIQUIDITY_BUFFER_BPS : Nat := 7500
def BPS : Nat := 10000
def STRATEGY_PROOF_DEADLINE : Nat := 86400

structure Config where
  /-- `address(this)` of the vault. -/
  vault : Address
  escrow : Address
  adapter : Address
  vaultId : Nat
  vaultType : VaultType
  vaultName : Nat
  roundDuration : Nat
  asset : Address
  firstRoundOpensAt : Nat
  compoundComet : Address
  strategyGuardian : Address
  minimumStrategyEpochAge : Nat
  settlementBondAmount : Nat
  settlementRewardPerParticipantPass : Nat

namespace Config

/-- `address(STRATEGY) != address(0)`: a strategy is deployed when a market is configured. -/
def hasStrategy (cfg : Config) : Bool := cfg.compoundComet != 0

/-- `REFUND_PER_COMPLETED_PARTICIPANT`. -/
def refundPerCompletedParticipant (cfg : Config) : Nat :=
  cfg.settlementBondAmount - cfg.settlementRewardPerParticipantPass * 2

/-- A caller of the contracts that is none of them: the only accounts that send transactions. -/
def External (cfg : Config) (caller : Address) : Prop :=
  caller ≠ 0 ∧ caller ≠ cfg.vault ∧ caller ≠ cfg.escrow ∧ caller ≠ cfg.adapter ∧
    caller ≠ cfg.asset

end Config

end Leopold
