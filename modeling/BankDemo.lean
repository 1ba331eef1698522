import BankDemo.Properties.Books
import BankDemo.Properties.SettleOnce
import BankDemo.Properties.Overdraft
import BankDemo.Properties.Idempotency
import BankDemo.Properties.Agreement
import BankDemo.Properties.Conservation
import BankDemo.Properties.Suspense
import BankDemo.Properties.Failure
import BankDemo.Properties.Overrides
import BankDemo.Properties.Feed
import BankDemo.CheckDeposits.Service
import BankDemo.Properties.CheckDeposits
import BankDemo.Admin.Users
import BankDemo.Properties.UserDeletion
import BankDemo.Properties.PendingRows
import BankDemo.System.Owners
import BankDemo.Properties.HistoryReset
import BankDemo.PaymentRequests.Service
import BankDemo.Properties.PaymentRequests
import BankDemo.Foundations.JsDate
import BankDemo.Goals.Service
import BankDemo.Autosave.Service
import BankDemo.RoundUps.Service
import BankDemo.Properties.GoalMoney
import BankDemo.Properties.RoundUps
import BankDemo.Crypto.Jwt
import BankDemo.Identity.Store
import BankDemo.Sessions.Service
import BankDemo.Sessions.Rules
import BankDemo.Sessions.Calls
import BankDemo.Properties.Revocation
import BankDemo.Properties.RefreshTokens
import BankDemo.Foundations.ReadCommitted
import BankDemo.Sessions.Statements
import BankDemo.Properties.SingleSession
import BankDemo.Mfa.Service
import BankDemo.Auth.Service
import BankDemo.Elevation.Service
import BankDemo.Auth.Calls
import BankDemo.Properties.Elevation
import BankDemo.Properties.ActiveUsers
import BankDemo.Properties.TokenPurpose
import BankDemo.Properties.Sockets
import BankDemo.Pay.Service
import BankDemo.Elevation.Routes
import BankDemo.Properties.Mediation
import BankDemo.Signup.Store
import BankDemo.Signup.Service
import BankDemo.Signup.Calls
import BankDemo.Signup.Rules
import BankDemo.Properties.SignupStages
import BankDemo.Properties.VerifiedContact
import BankDemo.Properties.Pricing
import BankDemo.Documents.Storage
import BankDemo.Properties.StorageKeys
import BankDemo.Properties.PrivateFiles
import BankDemo.Foundations.Base64Url
import BankDemo.Foundations.UuidText
import BankDemo.Transactions.Cursor
import BankDemo.Properties.Cursors
import BankDemo.Foundations.Keyset
import BankDemo.Transactions.Service
import BankDemo.Properties.Pagination
import BankDemo.Kyc.Service
import BankDemo.Admin.Desk
import BankDemo.Properties.QueueBadges
import BankDemo.Users.Service
import BankDemo.Signup.Addresses
import BankDemo.Properties.OneAddress
import BankDemo.Accounts.Provisioner
import BankDemo.Properties.Provisioning
import BankDemo.Recurring.Service
import BankDemo.Properties.Recurring
import BankDemo.Notifications.Service
import BankDemo.Properties.PayNotices
import BankDemo.Properties.EditFloor
import BankDemo.Foundations.ForeignKeys
import BankDemo.Admin.Deletion
import BankDemo.Auth.Recovery
import BankDemo.Properties.HardDeletion
import BankDemo.Fx.Service
import BankDemo.Properties.FxRates
import BankDemo.Admin.Beneficiaries
import BankDemo.Properties.WireGate
import BankDemo.Foundations.Periods
import BankDemo.Statements.Service
import BankDemo.Properties.Statements
import BankDemo.Properties.ListedAsShown
import BankDemo.Foundations.Maps
import BankDemo.Properties.Counterparties
import BankDemo.Properties.SettledNotices
import BankDemo.Foundations.Months
import BankDemo.Recurring.Dates
import BankDemo.Properties.Schedules
import BankDemo.Foundations.Shares
import BankDemo.Autosave.Splits
import BankDemo.Properties.Splits
import BankDemo.Properties.RefreshLifetime
import BankDemo.Properties.GuessBudget
import BankDemo.Elevation.Pin
import BankDemo.Properties.PinBudget
import BankDemo.Properties.SignupCodes
import BankDemo.Auth.PasswordReset
import BankDemo.Properties.SpentProofs
import BankDemo.Properties.SignInDoors
import BankDemo.Auth.Devices
import BankDemo.Auth.DeviceRules
import BankDemo.Properties.TrustedDevice
import BankDemo.Biometric.Rules
import BankDemo.Properties.Passkeys
import BankDemo.Properties.AccountNumbers
import BankDemo.Properties.Recipients
import BankDemo.Cards.Lifecycle
import BankDemo.Properties.CardLifecycle
import BankDemo.Properties.Presence
import BankDemo.Support.Attachments
import BankDemo.Support.Service
import BankDemo.Properties.UnreadThreads
import BankDemo.Mail.Service
import BankDemo.Properties.InboundMail
import BankDemo.Properties.OverrideRate
import BankDemo.Properties.CardNumbers
import BankDemo.Statements.Renderer
import BankDemo.Properties.PolicyBlocks
import BankDemo.LinkedAccounts.Store
import BankDemo.LinkedAccounts.Auth
import BankDemo.LinkedAccounts.Service
import BankDemo.LinkedAccounts.Rules
import BankDemo.Properties.LinkedAccounts
import BankDemo.Crypto.AesGcm
import BankDemo.Cards.Vault
import BankDemo.Properties.CardSecrets
import BankDemo.Foundations.Draws
import BankDemo.Referrals.Service
import BankDemo.Properties.Referrals
import BankDemo.Mail.Desk
import BankDemo.Mail.Rules
import BankDemo.Properties.ReplyAddresses
import BankDemo.Foundations.PageRows
import BankDemo.Properties.StatementPages
import BankDemo.PolicyDocs.Renderer
import BankDemo.Properties.PolicyTexts
import BankDemo.Foundations.GroupBy
import BankDemo.Insights.Service
import BankDemo.Properties.Charts
import BankDemo.Properties.ChartCache
import BankDemo.Elevation.Passkey
import BankDemo.Properties.PasskeyDoors
import BankDemo.Support.Desk
import BankDemo.Support.Rules
import BankDemo.Properties.Chats
import BankDemo.Properties.Deals
import BankDemo.Properties.AutosaveSettings
