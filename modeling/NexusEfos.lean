import NexusEfos.Savings.LostUpdates
import NexusEfos.Savings.ControlAccount
import NexusEfos.Loans.RepaymentRuns
import NexusEfos.Loans.Restructure
import NexusEfos.Loans.ControlAccount
import NexusEfos.Loans.ControlAccount
import NexusEfos.Middleware.Replays
import NexusEfos.Approvals.Rejections
import NexusEfos.Approvals.Overrides
import NexusEfos.Loans.RuleApprovals
import NexusEfos.Ledger.CashFlow
import NexusEfos.Loans.RiskWeightedAssets
import NexusEfos.Collections.Reversals
import NexusEfos.Operations.InterBranch
import NexusEfos.Operations.RateActivations
import NexusEfos.Collections.Commissions
import NexusEfos.Operations.VaultBalancing
import NexusEfos.Auth.Attempts
import NexusEfos.Customers.Rollbacks
import NexusEfos.Collections.Routes
import NexusEfos.Customers.Beneficiaries
import NexusEfos.Customers.Diligence
import NexusEfos.Customers.Kyc
import NexusEfos.Auth.Standing
import NexusEfos.Middleware.Rbac
import NexusEfos.Savings.InstructionRuns
import NexusEfos.Operations.InternalAudit
import NexusEfos.Operations.UndoneImports
import NexusEfos.Loans.RepaymentOrder
import NexusEfos.Loans.Amortization
import NexusEfos.Loans.DueDates
import NexusEfos.Operations.IncomeTax
import NexusEfos.Operations.DisposalResults
import NexusEfos.Ledger.AccountActivity
import NexusEfos.Savings.Statements
import NexusEfos.Loans.FullHistory
import NexusEfos.Operations.CatchingUp
import NexusEfos.Ledger.Concentration
import NexusEfos.Loans.CreditAssessment
import NexusEfos.Ledger.Forecast
import NexusEfos.Loans.RepaidArrears
import NexusEfos.Auth.PasswordHistory
import NexusEfos.Savings.PostedMonths
import NexusEfos.Auth.Secrets
import NexusEfos.Operations.ScheduledJobs
import NexusEfos.Operations.PayrollReports
